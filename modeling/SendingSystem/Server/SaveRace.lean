import SendingSystem.Lib.Schedule

/-!
# Concurrent saves to one name

Any number of texts and file parts whose names come to the same file, each in its
own worker. A worker's steps on the file system are a list: the mutex, the opens
that empty the file, the chunks, each written at the handle's own offset, and the
closes. What the C library buffers is written in chunks too, the last of them when
the file is closed.

A text is saved in one piece under `mtx_fprint`. A part is opened under the mutex by
`on_field_found`, and then the form parser opens the file once more and writes it
without the mutex, so another request can empty the file under its hands, and its
next chunk still goes to its own offset. That a chunk is written only by the request
that emptied the file last is what keeps one content in one file.

## Main definitions

* `FileStep`, `Request.steps`: What a request does, step by step.
* `Target`, `Saving`: The file and the mutex, and where a request is.
* `fileStep`: The next step of a request.
* `WritesOwn`: A chunk is written by the request that emptied the file last.
* `holds`, `Guarded`: Steps taken under the mutex.
* `Unmixed`, `Exclusive`: The invariants.

## Theorems

* `fileStep_eq_some`: What a step can do.
* `fileStep_cases`, `fileStep_locked`: What it does to the file and to the mutex.
* `unmixed_step`: A step that writes no other request's file keeps it unmixed.
* `saves_unmixed`: A run of such steps ends with the content of one request.
* `exclusive_step`, `texts_unmixed`: Texts alone never mix.
-/

namespace SendingSystem

namespace Server

open Schedule

/-- The bytes of a file after a write at an offset. Past the end there are zeros. -/
def writeAt (offset : Nat) (chunk file : List UInt8) : List UInt8 :=
  file.take offset ++ List.replicate (offset - file.length) 0 ++ chunk ++
    file.drop (offset + chunk.length)

/-- A step on the file system. -/
inductive FileStep where
  | lock
  | unlock
  | mkdir
  | fopen
  | write (chunk : List UInt8)
  | fclose
  deriving DecidableEq

/-- What is saved: a text or a file part, in the chunks it is written in. -/
inductive Request where
  | text (chunks : List (List UInt8))
  | part (chunks : List (List UInt8))

/-- The bytes to be saved. -/
def Request.content : Request → List UInt8
  | text chunks => chunks.flatten
  | part chunks => chunks.flatten

/-- `save_text_to_file`. -/
def saveTextSteps (chunks : List (List UInt8)) : List FileStep :=
  [.lock, .mkdir, .unlock, .lock, .fopen] ++ chunks.map .write ++ [.fclose, .unlock]

/-- `on_field_found`, then the form parser on its own handle, then `on_field_store`. -/
def storePartSteps (chunks : List (List UInt8)) : List FileStep :=
  [.mkdir, .lock, .fopen, .unlock, .fopen] ++ chunks.map .write ++
    [.fclose, .lock, .fclose, .unlock]

/-- The steps of a request. -/
def Request.steps : Request → List FileStep
  | text chunks => saveTextSteps chunks
  | part chunks => storePartSteps chunks

/-- The file, if there is one, and `mtx_fprint`; and how often the file was emptied. -/
structure Target where
  file : Option (List UInt8)
  locked : Bool
  opens : Nat

/-- Where a request is: the steps left, the offset of the handle it writes to, and
    how often the file had been emptied when it did so last. -/
structure Saving where
  todo : List FileStep
  offset : Nat
  mark : Nat

/-- The next step of a request. -/
def fileStep (s : Target) (w : Saving) : Option (Target × Saving) :=
  match w.todo with
  | [] => none
  | .lock :: rest =>
    if s.locked then none else some ({ s with locked := true }, { w with todo := rest })
  | .unlock :: rest => some ({ s with locked := false }, { w with todo := rest })
  | .fopen :: rest =>
    -- Opened for writing, the file is emptied.
    some ({ s with file := some [], opens := s.opens + 1 }, ⟨rest, 0, s.opens + 1⟩)
  | .write chunk :: rest =>
    some ({ s with file := s.file.map (writeAt w.offset chunk) },
      { w with todo := rest, offset := w.offset + chunk.length })
  | .mkdir :: rest => some (s, { w with todo := rest })
  | .fclose :: rest => some (s, { w with todo := rest })

variable {n : Nat}

/-- The requests before their first steps. -/
def saves (requests : Fin n → Request) (file : Option (List UInt8)) : Config n Target Saving :=
  ⟨⟨file, false, 0⟩, fun i => ⟨(requests i).steps, 0, 0⟩⟩

/-- Every request has taken all its steps. -/
def AllSaved (c : Config n Target Saving) : Prop := ∀ i, (c.workers i).todo = []

instance (c : Config n Target Saving) : Decidable (AllSaved c) :=
  inferInstanceAs (Decidable (∀ i, (c.workers i).todo = []))

/-- If the request writes a chunk next, no other one has emptied the file since it
    did so itself. -/
def WritesOwn (c : Config n Target Saving) (i : Fin n) : Prop :=
  ∀ chunk rest, (c.workers i).todo = .write chunk :: rest →
    (c.workers i).mark = c.shared.opens

instance (c : Config n Target Saving) (i : Fin n) : Decidable (WritesOwn c i) :=
  match h : (c.workers i).todo with
  | .write _ :: _ =>
    decidable_of_iff ((c.workers i).mark = c.shared.opens)
      ⟨fun hmark _ _ _ => hmark, fun hown => hown _ _ h⟩
  | [] => isTrue fun _ _ hw => by rw [h] at hw; cases hw
  | .lock :: _ | .unlock :: _ | .mkdir :: _ | .fopen :: _ | .fclose :: _ =>
    isTrue fun _ _ hw => by rw [h] at hw; cases hw

/-- The bytes still to be written. -/
def pending : List FileStep → List UInt8
  | [] => []
  | .write chunk :: rest => chunk ++ pending rest
  | _ :: rest => pending rest

/-- Nothing is written before the last time the file is opened. -/
def OpensFirst : List FileStep → Prop
  | [] => True
  | .write _ :: rest => .fopen ∉ rest ∧ OpensFirst rest
  | _ :: rest => OpensFirst rest

theorem writeAt_length (chunk file : List UInt8) :
    writeAt file.length chunk file = file ++ chunk := by
  rw [writeAt, List.take_length, Nat.sub_self, List.replicate_zero, List.append_nil,
    List.drop_eq_nil_of_le (Nat.le_add_right _ _), List.append_nil]

theorem pending_writes (chunks : List (List UInt8)) (rest : List FileStep) :
    pending (chunks.map .write ++ rest) = chunks.flatten ++ pending rest := by
  induction chunks with
  | nil => rfl
  | cons chunk chunks ih =>
      rw [List.map_cons, List.cons_append, pending, ih, List.flatten_cons, List.append_assoc]

theorem opensFirst_writes {rest : List FileStep} (hopen : .fopen ∉ rest) (h : OpensFirst rest)
    (chunks : List (List UInt8)) :
    .fopen ∉ chunks.map FileStep.write ++ rest ∧ OpensFirst (chunks.map .write ++ rest) := by
  induction chunks with
  | nil => exact ⟨hopen, h⟩
  | cons chunk chunks ih =>
      refine ⟨fun hmem => ?_, ih⟩
      rcases List.mem_cons.mp hmem with hmem | hmem
      · simp only [reduceCtorEq] at hmem
      · exact ih.1 hmem

/-- A request's bytes are all still to be written when it starts. -/
theorem pending_steps (r : Request) : pending r.steps = r.content := by
  cases r with
  | text chunks =>
      simp only [Request.steps, saveTextSteps, List.cons_append, List.nil_append, pending,
        pending_writes, List.append_nil, Request.content]
  | part chunks =>
      simp only [Request.steps, storePartSteps, List.cons_append, List.nil_append, pending,
        pending_writes, List.append_nil, Request.content]

theorem opensFirst_steps (r : Request) : OpensFirst r.steps := by
  cases r with
  | text chunks => exact (opensFirst_writes (by decide) (by trivial) chunks).2
  | part chunks => exact (opensFirst_writes (by decide) (by trivial) chunks).2

theorem fopen_mem_steps (r : Request) : .fopen ∈ r.steps := by
  cases r with
  | text chunks => simp only [Request.steps, saveTextSteps, List.cons_append, List.mem_cons,
      true_or, or_true]
  | part chunks => simp only [Request.steps, storePartSteps, List.cons_append, List.mem_cons,
      true_or, or_true]

/-- The step is on the mutex, or leaves the file alone. -/
def FileStep.Quiet : FileStep → Prop
  | .fopen => False
  | .write _ => False
  | _ => True

theorem pending_quiet {op : FileStep} (h : op.Quiet) (rest : List FileStep) :
    pending (op :: rest) = pending rest := by
  cases op <;> first | rfl | exact absurd h id

theorem opensFirst_quiet {op : FileStep} (h : op.Quiet) {rest : List FileStep} :
    OpensFirst (op :: rest) ↔ OpensFirst rest := by
  cases op <;> first | exact Iff.rfl | exact absurd h id

theorem fopen_mem_quiet {op : FileStep} (h : op.Quiet) {rest : List FileStep} :
    .fopen ∈ op :: rest ↔ .fopen ∈ rest := by
  rw [List.mem_cons, or_iff_right]
  rintro rfl
  exact h

/-- What a step can do. -/
theorem fileStep_eq_some {s s' : Target} {w w' : Saving} (h : fileStep s w = some (s', w')) :
    ∃ op rest, w.todo = op :: rest ∧
      ((op = .lock ∧ s.locked = false ∧ s' = { s with locked := true } ∧
          w' = { w with todo := rest }) ∨
        (op = .unlock ∧ s' = { s with locked := false } ∧ w' = { w with todo := rest }) ∨
        ((op = .mkdir ∨ op = .fclose) ∧ s' = s ∧ w' = { w with todo := rest }) ∨
        (op = .fopen ∧ s' = { s with file := some [], opens := s.opens + 1 } ∧
          w' = ⟨rest, 0, s.opens + 1⟩) ∨
        ∃ chunk, op = .write chunk ∧ s' = { s with file := s.file.map (writeAt w.offset chunk) } ∧
          w' = { w with todo := rest, offset := w.offset + chunk.length }) := by
  unfold fileStep at h
  cases htodo : w.todo with
  | nil => simp only [htodo, reduceCtorEq] at h
  | cons op rest =>
      refine ⟨op, rest, rfl, ?_⟩
      -- The lock alone may have to wait; every other step is taken.
      cases op with
      | lock =>
          simp only [htodo] at h
          split at h
          · simp only [reduceCtorEq] at h
          · next hfree =>
              rw [Option.some.injEq, Prod.mk.injEq] at h
              exact Or.inl ⟨rfl, Bool.not_eq_true _ ▸ hfree, h.1.symm, h.2.symm⟩
      | unlock =>
          simp only [htodo, Option.some.injEq, Prod.mk.injEq] at h
          exact Or.inr (Or.inl ⟨rfl, h.1.symm, h.2.symm⟩)
      | mkdir =>
          simp only [htodo, Option.some.injEq, Prod.mk.injEq] at h
          exact Or.inr (Or.inr (Or.inl ⟨Or.inl rfl, h.1.symm, h.2.symm⟩))
      | fclose =>
          simp only [htodo, Option.some.injEq, Prod.mk.injEq] at h
          exact Or.inr (Or.inr (Or.inl ⟨Or.inr rfl, h.1.symm, h.2.symm⟩))
      | fopen =>
          simp only [htodo, Option.some.injEq, Prod.mk.injEq] at h
          exact Or.inr (Or.inr (Or.inr (Or.inl ⟨rfl, h.1.symm, h.2.symm⟩)))
      | write chunk =>
          simp only [htodo, Option.some.injEq, Prod.mk.injEq] at h
          exact Or.inr (Or.inr (Or.inr (Or.inr ⟨chunk, rfl, h.1.symm, h.2.symm⟩)))

/-- What a step does to the file: leave it alone, empty it, or write a chunk to it. -/
theorem fileStep_cases {s s' : Target} {w w' : Saving} (h : fileStep s w = some (s', w')) :
    (∃ op rest, op.Quiet ∧ w.todo = op :: rest ∧ s'.file = s.file ∧ s'.opens = s.opens ∧
      w' = { w with todo := rest }) ∨
    (∃ rest, w.todo = .fopen :: rest ∧
      s' = { s with file := some [], opens := s.opens + 1 } ∧ w' = ⟨rest, 0, s.opens + 1⟩) ∨
    (∃ chunk rest, w.todo = .write chunk :: rest ∧
      s' = { s with file := s.file.map (writeAt w.offset chunk) } ∧
      w' = { w with todo := rest, offset := w.offset + chunk.length }) := by
  -- Lock, unlock, `mkdir` and `fclose` leave the file as it is.
  rcases fileStep_eq_some h with ⟨op, rest, htodo, ⟨rfl, _, rfl, rfl⟩ | ⟨rfl, rfl, rfl⟩ |
    ⟨hop, rfl, rfl⟩ | ⟨rfl, rfl, rfl⟩ | ⟨chunk, rfl, rfl, rfl⟩⟩
  · exact Or.inl ⟨.lock, rest, trivial, htodo, rfl, rfl, rfl⟩
  · exact Or.inl ⟨.unlock, rest, trivial, htodo, rfl, rfl, rfl⟩
  · refine Or.inl ⟨op, rest, ?_, htodo, rfl, rfl, rfl⟩
    rcases hop with rfl | rfl <;> trivial
  · exact Or.inr (Or.inl ⟨rest, htodo, rfl, rfl⟩)
  · exact Or.inr (Or.inr ⟨chunk, rest, htodo, rfl, rfl⟩)

/-- The request emptied the file last and has since written to its end, and what it
    has left to write makes its content complete. -/
structure Owns (content : List UInt8) (s : Target) (w : Saving) : Prop where
  opened : 0 < s.opens
  mark : w.mark = s.opens
  written : ∃ file, s.file = some file ∧ w.offset = file.length ∧ file ++ pending w.todo = content

/-- The file has the bytes of at most one request in it. -/
structure Unmixed (requests : Fin n → Request) (c : Config n Target Saving) : Prop where
  first : ∀ i, OpensFirst (c.workers i).todo
  whole : ∀ i, .fopen ∈ (c.workers i).todo → pending (c.workers i).todo = (requests i).content
  marks : ∀ i, (c.workers i).mark ≤ c.shared.opens
  distinct : ∀ i j, (c.workers i).mark = (c.workers j).mark → 0 < (c.workers i).mark → i = j
  owner : (c.shared.opens = 0 ∧ ∀ i, .fopen ∈ (c.workers i).todo) ∨
    ∃ i, Owns (requests i).content c.shared (c.workers i)

theorem unmixed_start (requests : Fin n → Request) (file : Option (List UInt8)) :
    Unmixed requests (saves requests file) where
  first := fun i => opensFirst_steps (requests i)
  whole := fun i _ => pending_steps (requests i)
  marks := fun _ => Nat.le_refl 0
  distinct := fun _ _ _ h => absurd h (Nat.lt_irrefl 0)
  owner := Or.inl ⟨rfl, fun i => fopen_mem_steps (requests i)⟩

section Step

variable {requests : Fin n → Request} {c c' : Config n Target Saving} {i : Fin n}

/-- A step that leaves the file alone. -/
theorem unmixed_quiet (h : Unmixed requests c) {op : FileStep} {rest : List FileStep}
    (hop : op.Quiet) (htodo : (c.workers i).todo = op :: rest)
    (hfile : c'.shared.file = c.shared.file) (hopens : c'.shared.opens = c.shared.opens)
    (hworkers : c'.workers = Function.update c.workers i { c.workers i with todo := rest }) :
    Unmixed requests c' := by
  -- Of a worker only its list of steps changes, and nothing is read off that is gone.
  have hfields : ∀ j, (c'.workers j).mark = (c.workers j).mark ∧
      (c'.workers j).offset = (c.workers j).offset ∧
      pending (c'.workers j).todo = pending (c.workers j).todo ∧
      (OpensFirst (c'.workers j).todo ↔ OpensFirst (c.workers j).todo) ∧
      (.fopen ∈ (c'.workers j).todo ↔ .fopen ∈ (c.workers j).todo) := by
    intro j
    rw [hworkers]
    by_cases hj : j = i
    · subst hj
      rw [Function.update_self, htodo, pending_quiet hop, opensFirst_quiet hop,
        fopen_mem_quiet hop]
      exact ⟨rfl, rfl, rfl, Iff.rfl, Iff.rfl⟩
    · rw [Function.update_of_ne hj]
      exact ⟨rfl, rfl, rfl, Iff.rfl, Iff.rfl⟩
  refine ⟨fun j => (hfields j).2.2.2.1.mpr (h.first j), fun j hj => ?_, fun j => ?_,
    fun j k hjk hpos => ?_, ?_⟩
  · rw [(hfields j).2.2.1]
    exact h.whole j ((hfields j).2.2.2.2.mp hj)
  · rw [(hfields j).1, hopens]
    exact h.marks j
  · rw [(hfields j).1] at hjk hpos
    rw [(hfields k).1] at hjk
    exact h.distinct j k hjk hpos
  · rcases h.owner with ⟨hzero, hall⟩ | ⟨j, hown⟩
    · exact Or.inl ⟨hopens.trans hzero, fun j => (hfields j).2.2.2.2.mpr (hall j)⟩
    · rcases hown.written with ⟨file, hold, hoffset, hcontent⟩
      refine Or.inr ⟨j, hopens ▸ hown.opened, ?_, file, hfile.trans hold, ?_, ?_⟩
      · rw [(hfields j).1, hopens]
        exact hown.mark
      · rw [(hfields j).2.1]
        exact hoffset
      · rw [(hfields j).2.2.1]
        exact hcontent

/-- A step that empties the file: it is its request's from now on. -/
theorem unmixed_fopen (h : Unmixed requests c) {rest : List FileStep}
    (htodo : (c.workers i).todo = .fopen :: rest)
    (hshared : c'.shared = { c.shared with file := some [], opens := c.shared.opens + 1 })
    (hworkers : c'.workers = Function.update c.workers i ⟨rest, 0, c.shared.opens + 1⟩) :
    Unmixed requests c' := by
  have hself : c'.workers i = ⟨rest, 0, c.shared.opens + 1⟩ := by
    rw [hworkers, Function.update_self]
  have hother : ∀ j, j ≠ i → c'.workers j = c.workers j := by
    intro j hj
    rw [hworkers, Function.update_of_ne hj]
  have hopens : c'.shared.opens = c.shared.opens + 1 := by rw [hshared]
  have hwhole : pending rest = (requests i).content := by
    have hmem := h.whole i (by rw [htodo]; exact List.mem_cons_self)
    rw [htodo] at hmem
    exact hmem
  refine ⟨fun j => ?_, fun j hj => ?_, fun j => ?_, fun j k hjk hpos => ?_,
    Or.inr ⟨i, ?_, ?_, [], ?_, ?_, ?_⟩⟩
  · by_cases hji : j = i
    · have hfirst := h.first i
      rw [htodo] at hfirst
      rw [hji, hself]
      exact hfirst
    · rw [hother j hji]
      exact h.first j
  · by_cases hji : j = i
    · rw [hji, hself]
      exact hwhole
    · rw [hother j hji] at hj ⊢
      exact h.whole j hj
  · rw [hopens]
    by_cases hji : j = i
    · rw [hji, hself]
    · have hle := h.marks j
      rw [hother j hji]
      omega
  -- The new mark is above all others.
  · by_cases hji : j = i
    · by_cases hki : k = i
      · rw [hji, hki]
      · have hle := h.marks k
        rw [hji, hself, hother k hki] at hjk
        simp only at hjk
        omega
    · by_cases hki : k = i
      · have hle := h.marks j
        rw [hki, hself, hother j hji] at hjk
        simp only at hjk
        omega
      · rw [hother j hji] at hjk hpos
        rw [hother k hki] at hjk
        exact h.distinct j k hjk hpos
  · omega
  · rw [hself, hopens]
  · rw [hshared]
  · rw [hself]
    rfl
  · rw [hself, List.nil_append]
    exact hwhole

/-- A chunk written by the request that emptied the file last. -/
theorem unmixed_write (h : Unmixed requests c) (hown : WritesOwn c i) {chunk : List UInt8}
    {rest : List FileStep} (htodo : (c.workers i).todo = .write chunk :: rest)
    (hshared : c'.shared
      = { c.shared with file := c.shared.file.map (writeAt (c.workers i).offset chunk) })
    (hworkers : c'.workers = Function.update c.workers i
      { c.workers i with
        todo := rest
        offset := (c.workers i).offset + chunk.length }) :
    Unmixed requests c' := by
  have hfirst := h.first i
  rw [htodo] at hfirst
  -- The request has opened the file for the last time, so the file has an owner.
  rcases h.owner with ⟨_, hall⟩ | ⟨j, hj⟩
  · have hmem := hall i
    rw [htodo] at hmem
    rcases List.mem_cons.mp hmem with hmem | hmem
    · simp only [reduceCtorEq] at hmem
    · exact absurd hmem hfirst.1
  · have hji : j = i := by
      refine h.distinct j i (hj.mark.trans (hown chunk rest htodo).symm) ?_
      rw [hj.mark]
      exact hj.opened
    subst hji
    rcases hj.written with ⟨file, hfile, hoffset, hcontent⟩
    rw [htodo, pending] at hcontent
    have hself : c'.workers j
        = ⟨rest, (c.workers j).offset + chunk.length, (c.workers j).mark⟩ := by
      rw [hworkers, Function.update_self]
    have hother : ∀ k, k ≠ j → c'.workers k = c.workers k := by
      intro k hk
      rw [hworkers, Function.update_of_ne hk]
    have hmark : ∀ k, (c'.workers k).mark = (c.workers k).mark := by
      intro k
      by_cases hk : k = j
      · rw [hk, hself]
      · rw [hother k hk]
    have hopens : c'.shared.opens = c.shared.opens := by rw [hshared]
    refine ⟨fun k => ?_, fun k hk => ?_, fun k => ?_, fun k l hkl hpos => ?_,
      Or.inr ⟨j, hopens ▸ hj.opened, ?_, file ++ chunk, ?_, ?_, ?_⟩⟩
    · by_cases hkj : k = j
      · rw [hkj, hself]
        exact hfirst.2
      · rw [hother k hkj]
        exact h.first k
    · by_cases hkj : k = j
      · rw [hkj, hself] at hk
        exact absurd hk hfirst.1
      · rw [hother k hkj] at hk ⊢
        exact h.whole k hk
    · rw [hmark, hopens]
      exact h.marks k
    · rw [hmark] at hkl hpos
      rw [hmark] at hkl
      exact h.distinct k l hkl hpos
    · rw [hmark, hopens]
      exact hj.mark
    -- The write goes to the end of the file.
    · rw [hshared]
      simp only [hfile, Option.map_some, hoffset, writeAt_length]
    · rw [hself, List.length_append]
      simp only [hoffset]
    · rw [hself, List.append_assoc]
      exact hcontent

end Step

/-- A step that writes no other request's file keeps it unmixed. -/
theorem unmixed_step {requests : Fin n → Request} (c : Config n Target Saving) (i : Fin n)
    (c' : Config n Target Saving) (h : Unmixed requests c) (hown : WritesOwn c i)
    (hstep : step fileStep c i = some c') : Unmixed requests c' := by
  rcases step_eq_some hstep with ⟨w, hact, hworkers⟩
  rcases fileStep_cases hact with ⟨op, rest, hop, htodo, hfile, hopens, rfl⟩ |
    ⟨rest, htodo, hshared, rfl⟩ | ⟨chunk, rest, htodo, hshared, rfl⟩
  · exact unmixed_quiet h hop htodo hfile hopens hworkers
  · exact unmixed_fopen h htodo hshared hworkers
  · exact unmixed_write h hown htodo hshared hworkers

/-- When all have taken all their steps, one of them has written the whole file. -/
theorem Unmixed.finished {n : Nat} {requests : Fin (n + 1) → Request}
    {c : Config (n + 1) Target Saving} (h : Unmixed requests c) (hdone : AllSaved c) :
    ∃ i, c.shared.file = some (requests i).content := by
  rcases h.owner with ⟨_, hall⟩ | ⟨i, hi⟩
  -- Somebody has opened the file.
  · have hmem := hall 0
    rw [hdone 0] at hmem
    exact absurd hmem List.not_mem_nil
  · rcases hi.written with ⟨bytes, hfile, _, hcontent⟩
    rw [hdone i, pending, List.append_nil] at hcontent
    exact ⟨i, hcontent ▸ hfile⟩

/-- Any number of requests for one name, at least one, and any order of their steps
    in which every chunk is written by the request that emptied the file last: when
    all have taken all their steps, the file's content is that of one of them. -/
theorem saves_unmixed {n : Nat} (requests : Fin (n + 1) → Request) (file : Option (List UInt8))
    (schedule : List (Fin (n + 1))) (c : Config (n + 1) Target Saving)
    (hrun : run fileStep (saves requests file) schedule = some c)
    (hown : Steps.Along (step fileStep) WritesOwn (saves requests file) schedule)
    (hdone : AllSaved c) :
    ∃ i, c.shared.file = some (requests i).content := by
  have hend := run_invariant_along (Unmixed requests) unmixed_step schedule _ c hown
    (unmixed_start requests file) hrun
  exact hend.finished hdone

/-- The request has the mutex: the next step on it is to give it back. -/
def holds : List FileStep → Bool
  | [] => false
  | .lock :: _ => false
  | .unlock :: _ => true
  | _ :: rest => holds rest

/-- The file is emptied and written under the mutex only, and each time the mutex
    is taken the file is still to be opened. -/
def Guarded : List FileStep → Prop
  | [] => True
  | .lock :: rest => holds rest = true ∧ .fopen ∈ rest ∧ Guarded rest
  | .unlock :: rest => holds rest = false ∧ Guarded rest
  | .fopen :: rest => holds rest = true ∧ Guarded rest
  | .write _ :: rest => holds rest = true ∧ Guarded rest
  | _ :: rest => Guarded rest

theorem guarded_writes {rest : List FileStep} (hholds : holds rest = true) (h : Guarded rest)
    (chunks : List (List UInt8)) :
    holds (chunks.map .write ++ rest) = true ∧ Guarded (chunks.map .write ++ rest) := by
  induction chunks with
  | nil => exact ⟨hholds, h⟩
  | cons chunk chunks ih => exact ⟨ih.1, ih⟩

/-- A text is saved under the mutex. -/
theorem guarded_text (chunks : List (List UInt8)) : Guarded (saveTextSteps chunks) := by
  have hwrites := @guarded_writes [.fclose, .unlock] (by rfl) (by exact ⟨rfl, trivial⟩) chunks
  have hopen : ∀ rest : List FileStep, .fopen ∈ FileStep.fopen :: rest :=
    fun rest => List.mem_cons_self
  refine ⟨rfl, ?_, rfl, hwrites.1, hopen _, hwrites⟩
  exact List.mem_cons_of_mem _ (List.mem_cons_of_mem _ (List.mem_cons_of_mem _ (hopen _)))

/-- What a step does to the mutex, and whether it empties the file. -/
theorem fileStep_locked {s s' : Target} {w w' : Saving} (h : fileStep s w = some (s', w')) :
    ∃ op rest, w.todo = op :: rest ∧ w'.todo = rest ∧
      ((op = .lock ∧ s.locked = false ∧ s'.locked = true) ∨ (op = .unlock ∧ s'.locked = false) ∨
        (op ≠ .lock ∧ op ≠ .unlock ∧ s'.locked = s.locked)) ∧
      ((op = .fopen ∧ w'.mark = s'.opens) ∨
        (op ≠ .fopen ∧ w'.mark = w.mark ∧ s'.opens = s.opens)) := by
  rcases fileStep_eq_some h with ⟨op, rest, htodo, ⟨rfl, hfree, rfl, rfl⟩ | ⟨rfl, rfl, rfl⟩ |
    ⟨hop, rfl, rfl⟩ | ⟨rfl, rfl, rfl⟩ | ⟨chunk, rfl, rfl, rfl⟩⟩
  · exact ⟨.lock, rest, htodo, rfl, Or.inl ⟨rfl, hfree, rfl⟩, Or.inr ⟨nofun, rfl, rfl⟩⟩
  · exact ⟨.unlock, rest, htodo, rfl, Or.inr (Or.inl ⟨rfl, rfl⟩), Or.inr ⟨nofun, rfl, rfl⟩⟩
  · refine ⟨op, rest, htodo, rfl, Or.inr (Or.inr ⟨?_, ?_, rfl⟩), Or.inr ⟨?_, rfl, rfl⟩⟩ <;>
      rcases hop with rfl | rfl <;> nofun
  · exact ⟨.fopen, rest, htodo, rfl, Or.inr (Or.inr ⟨nofun, nofun, rfl⟩), Or.inl ⟨rfl, rfl⟩⟩
  · exact ⟨.write chunk, rest, htodo, rfl, Or.inr (Or.inr ⟨nofun, nofun, rfl⟩),
      Or.inr ⟨nofun, rfl, rfl⟩⟩

theorem holds_cons {op : FileStep} (hlock : op ≠ .lock) (hunlock : op ≠ .unlock)
    (rest : List FileStep) : holds (op :: rest) = holds rest := by
  cases op with
  | lock => exact absurd rfl hlock
  | unlock => exact absurd rfl hunlock
  | mkdir | fopen | fclose => rfl
  | write chunk => rfl

theorem Guarded.tail {op : FileStep} {rest : List FileStep} (h : Guarded (op :: rest)) :
    Guarded rest := by
  cases op with
  | lock => exact h.2.2
  | unlock | fopen => exact h.2
  | write chunk => exact h.2
  | mkdir | fclose => exact h

theorem OpensFirst.tail {op : FileStep} {rest : List FileStep} (h : OpensFirst (op :: rest)) :
    OpensFirst rest := by
  cases op with
  | write chunk => exact h.2
  | lock | unlock | mkdir | fopen | fclose => exact h

/-- One request at a time is in the part of its steps that the mutex guards, and
    once it has opened the file there no other one does. -/
structure Exclusive (c : Config n Target Saving) : Prop where
  first : ∀ i, OpensFirst (c.workers i).todo
  guarded : ∀ i, Guarded (c.workers i).todo
  locked : ∀ i, holds (c.workers i).todo = true → c.shared.locked = true
  one : ∀ i j, holds (c.workers i).todo = true → holds (c.workers j).todo = true → i = j
  mark : ∀ i, holds (c.workers i).todo = true → .fopen ∉ (c.workers i).todo →
    (c.workers i).mark = c.shared.opens

theorem exclusive_start {requests : Fin n → Request}
    (htext : ∀ i, ∃ chunks, requests i = .text chunks) (file : Option (List UInt8)) :
    Exclusive (saves requests file) := by
  -- Nobody holds the lock before the first step.
  have hholds : ∀ i, holds (requests i).steps = false := by
    intro i
    rcases htext i with ⟨chunks, h⟩
    rw [h]
    rfl
  refine ⟨fun i => opensFirst_steps (requests i), fun i => ?_, fun i hi => ?_, fun i j hi => ?_,
    fun i hi => ?_⟩
  · rcases htext i with ⟨chunks, h⟩
    change Guarded (requests i).steps
    rw [h]
    exact guarded_text chunks
  · exact absurd ((hholds i).symm.trans hi) Bool.false_ne_true
  · exact absurd ((hholds i).symm.trans hi) Bool.false_ne_true
  · exact absurd ((hholds i).symm.trans hi) Bool.false_ne_true

/-- Who writes has the mutex and emptied the file last. -/
theorem Exclusive.writesOwn {c : Config n Target Saving} (h : Exclusive c) (i : Fin n) :
    WritesOwn c i := by
  intro chunk rest htodo
  have hguarded := h.guarded i
  have hfirst := h.first i
  rw [htodo] at hguarded hfirst
  refine h.mark i ?_ ?_
  · rw [htodo]
    exact hguarded.1
  · rw [htodo, List.mem_cons, not_or]
    exact ⟨by simp only [reduceCtorEq, not_false_eq_true], hfirst.1⟩

/-- Who has the mutex after a step: the request that took it, which nobody had, then
    nobody, or else who had it before. -/
theorem holds_step {c c' : Config n Target Saving} {i : Fin n} {op : FileStep}
    {rest : List FileStep} (h : Exclusive c) (htodo : (c.workers i).todo = op :: rest)
    (hself : (c'.workers i).todo = rest) (hother : ∀ j, j ≠ i → c'.workers j = c.workers j)
    (hfree : op = .lock → c.shared.locked = false) :
    (op = .lock ∧ ∀ j, holds (c'.workers j).todo = true → j = i) ∨
    (op = .unlock ∧ ∀ j, holds (c'.workers j).todo = false) ∨
    (op ≠ .lock ∧ op ≠ .unlock ∧
      ∀ j, holds (c'.workers j).todo = holds (c.workers j).todo) := by
  have hguarded := h.guarded i
  rw [htodo] at hguarded
  by_cases hlock : op = .lock
  · refine Or.inl ⟨hlock, fun j hj => ?_⟩
    by_contra hne
    rw [hother j hne] at hj
    exact Bool.false_ne_true ((hfree hlock).symm.trans (h.locked j hj))
  · by_cases hunlock : op = .unlock
    · refine Or.inr (Or.inl ⟨hunlock, fun j => ?_⟩)
      subst hunlock
      by_cases hj : j = i
      · rw [hj, hself]
        exact hguarded.1
      -- Another holder would be a second one: the worker that unlocks held the lock.
      · by_contra hheld
        rw [hother j hj] at hheld
        refine hj (h.one j i (Bool.not_eq_false _ ▸ hheld) ?_)
        rw [htodo]
        rfl
    · refine Or.inr (Or.inr ⟨hlock, hunlock, fun j => ?_⟩)
      by_cases hj : j = i
      -- A step that is neither leaves who holds the lock as it was.
      · rw [hj, hself, htodo, holds_cons hlock hunlock]
      · rw [hother j hj]

/-- The steps of guarded requests keep out of each other's way. -/
theorem exclusive_step (c : Config n Target Saving) (i : Fin n) (c' : Config n Target Saving)
    (h : Exclusive c) (hstep : step fileStep c i = some c') : Exclusive c' := by
  rcases step_eq_some hstep with ⟨w, hact, hworkers⟩
  rcases fileStep_locked hact with ⟨op, rest, htodo, hw, hlock, hmark⟩
  have hself : (c'.workers i).todo = rest := by rw [hworkers, Function.update_self, hw]
  have hother : ∀ j, j ≠ i → c'.workers j = c.workers j := by
    intro j hj
    rw [hworkers, Function.update_of_ne hj]
  have hfree : op = .lock → c.shared.locked = false := by
    intro hop
    rcases hlock with ⟨_, hfree, _⟩ | ⟨hop', _⟩ | ⟨hno, _⟩
    · exact hfree
    · rw [hop] at hop'
      simp only [reduceCtorEq] at hop'
    · exact absurd hop hno
  have hholds := holds_step h htodo hself hother hfree
  have hguarded := h.guarded i
  have hfirst := h.first i
  rw [htodo] at hguarded hfirst
  refine ⟨fun j => ?_, fun j => ?_, fun j hj => ?_, fun j k hj hk => ?_, fun j hj hopened => ?_⟩
  · by_cases hji : j = i
    · rw [hji, hself]
      exact hfirst.tail
    · rw [hother j hji]
      exact h.first j
  · by_cases hji : j = i
    · rw [hji, hself]
      exact hguarded.tail
    · rw [hother j hji]
      exact h.guarded j
  · rcases hlock with ⟨_, _, htaken⟩ | ⟨hop, _⟩ | ⟨hl, hu, hsame⟩
    · exact htaken
    · rcases hholds with ⟨hop', _⟩ | ⟨_, hnone⟩ | ⟨_, hno, _⟩
      · rw [hop] at hop'
        simp only [reduceCtorEq] at hop'
      · exact absurd ((hnone j).symm.trans hj) Bool.false_ne_true
      · exact absurd hop hno
    · rcases hholds with ⟨hop, _⟩ | ⟨hop, _⟩ | ⟨_, _, hsame'⟩
      · exact absurd hop hl
      · exact absurd hop hu
      · rw [hsame' j] at hj
        rw [hsame]
        exact h.locked j hj
  · rcases hholds with ⟨_, honly⟩ | ⟨_, hnone⟩ | ⟨_, _, hsame⟩
    · rw [honly j hj, honly k hk]
    · exact absurd ((hnone j).symm.trans hj) Bool.false_ne_true
    · rw [hsame] at hj hk
      exact h.one j k hj hk
  · rcases hholds with ⟨hop, honly⟩ | ⟨_, hnone⟩ | ⟨hl, hu, hsame⟩
    -- The mutex was just taken, and the file is still to be opened.
    · rw [honly j hj, hself] at hopened
      rw [hop] at hguarded
      exact absurd hguarded.2.1 hopened
    · exact absurd ((hnone j).symm.trans hj) Bool.false_ne_true
    · rw [hsame] at hj
      rcases hmark with ⟨hop, hnew⟩ | ⟨hop, hkept, hopens⟩
      -- Who opens the file has the mutex.
      · have hheld : holds (c.workers i).todo = true := by
          rw [hop] at hguarded
          rw [htodo, hop]
          exact hguarded.1
        rw [h.one j i hj hheld, hworkers, Function.update_self]
        exact hnew
      · rw [hopens]
        by_cases hji : j = i
        · subst hji
          rw [hworkers, Function.update_self, hkept]
          refine h.mark j hj ?_
          rw [htodo, List.mem_cons, not_or]
          exact ⟨fun heq => hop heq.symm, hself ▸ hopened⟩
        · rw [hother j hji] at hopened ⊢
          exact h.mark j hj hopened

/-- Texts alone never mix, in whatever order their steps are taken. -/
theorem texts_unmixed {n : Nat} {requests : Fin (n + 1) → Request}
    (htext : ∀ i, ∃ chunks, requests i = .text chunks) {file : Option (List UInt8)}
    {schedule : List (Fin (n + 1))} {c : Config (n + 1) Target Saving}
    (hrun : run fileStep (saves requests file) schedule = some c) (hdone : AllSaved c) :
    ∃ i, c.shared.file = some (requests i).content := by
  have hown := Steps.along_of_invariant Exclusive (fun _ i h => h.writesOwn i) exclusive_step
    schedule _ (exclusive_start htext file)
  have hend := run_invariant_along (Unmixed requests) unmixed_step schedule _ c hown
    (unmixed_start requests file) hrun
  exact hend.finished hdone

/-- Two parts, of four bytes and of two. -/
def twoParts : Fin 2 → Request
  | 0 => .part [[97, 97, 97, 97]]
  | 1 => .part [[98, 98]]

/-- One part after the other: the file has the content of one of them. -/
theorem saves_unmixed_in_turn : ∃ c, run fileStep (saves twoParts none)
      (List.replicate 10 0 ++ List.replicate 10 1) = some c ∧
    ∃ i, c.shared.file = some (twoParts i).content := by
  have hrun : (run fileStep (saves twoParts none)
      (List.replicate 10 0 ++ List.replicate 10 1)).any (fun c => decide (AllSaved c)) = true := by
    decide
  rcases (Option.any_eq_true _ _).mp hrun with ⟨c, hc, hdone⟩
  rw [decide_eq_true_eq] at hdone
  exact ⟨c, hc, saves_unmixed twoParts none _ c hc (by decide) hdone⟩

/-- Two parts whose files are both opened before either is written: the second one
    overwrites the beginning of the first. -/
theorem parts_mix : ∃ c, run fileStep (saves twoParts none)
      (List.replicate 5 0 ++ List.replicate 5 1 ++ List.replicate 5 0 ++ List.replicate 5 1)
      = some c ∧ AllSaved c ∧ ∀ i, c.shared.file ≠ some (twoParts i).content := by
  have hrun : (run fileStep (saves twoParts none)
      (List.replicate 5 0 ++ List.replicate 5 1 ++ List.replicate 5 0 ++ List.replicate 5 1)).any
      (fun c => decide (AllSaved c ∧ ∀ i, c.shared.file ≠ some (twoParts i).content)) = true := by
    decide
  rcases (Option.any_eq_true _ _).mp hrun with ⟨c, hc, hmixed⟩
  rw [decide_eq_true_eq] at hmixed
  exact ⟨c, hc, hmixed⟩

end Server

end SendingSystem
