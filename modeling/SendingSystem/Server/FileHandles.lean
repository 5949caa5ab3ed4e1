import Mathlib.Data.List.Nodup
import Mathlib.Data.List.Perm.Subperm
import SendingSystem.Server.Storage

/-!
# The files an upload leaves open

`on_field_found` puts the file it opens into the one slot of the context, and
`on_field_store` closes the file in the slot. A part that cannot be written gets no
`on_field_store`, so its file stays in the slot. The handler closes a file that is
still there when the form has ended, but the next file part puts its own there
first, or null when it cannot be opened.

So a file is closed or in the slot until a file part is found while the slot is
taken. From then on fewer files are accounted for than were opened.

## Main definitions

* `foundFiles`: The file parts a form gets to.
* `FormState.handles`: The files that are closed or in the slot.
* `Accounted`, `Leaks`: All of them are there, or some are missing.
* `uploadLogs`: What was logged when the handler returns.
* `EmptySlot`: The slot is empty for each file part.
* `ClosesEach`: Every file that was opened was closed exactly once.

## Theorems

* `handlePart_handles`: What a part does to the handles.
* `form_leaks`: A file that is missing stays missing.
* `form_handles`: What a form does to the handles.
* `upload_closes_iff`: When every file is closed exactly once.
-/

namespace SendingSystem

namespace Server

open CString

/-- The file parts a form gets to: all of them, up to one that cannot be opened. -/
def foundFiles : List Part → List Part
  | [] => []
  | p :: parts =>
    if p.isFile then if p.fopen then [p] else p :: foundFiles parts
    else foundFiles parts

/-- The files that are closed, and the one in the slot. -/
def FormState.handles (s : FormState) : List Nat := s.closed ++ s.ctx.fp.toList

/-- Every file that was opened is there, exactly once. -/
def Accounted (s : FormState) : Prop := s.handles.Perm (List.range s.opened)

/-- There are fewer than were opened. -/
def Leaks (s : FormState) : Prop := s.handles.length < s.opened

/-- What the callbacks logged when the handler returns. -/
def uploadLogs (fault : UploadFault) (req : UploadRequest) (w : World) : FormState :=
  if req.method ≠ .lit "POST" then .initial w.files else (uploadForm fault req w.files).2

/-- Every file that was opened was closed exactly once. -/
def ClosesEach (s : FormState) : Prop := ∀ h < s.opened, s.closed.count h = 1

/-- The logs are those of the handler's own form. -/
theorem uploadLogs_files (fault : UploadFault) (req : UploadRequest) (w : World) :
    (apiUploadHandler fault req w).files = (uploadLogs fault req w).files := by
  unfold uploadLogs
  by_cases hmethod : req.method = .lit "POST"
  · rw [if_neg (not_not_intro hmethod)]
    exact apiUploadHandler_files fault req w hmethod
  · rw [if_pos hmethod, apiUploadHandler_method fault req w hmethod]
    rfl

/-- A plain field does nothing. A file part empties the slot or fills it with the
    file it opens, whatever is in it, and that file is closed when it is stored. -/
theorem handlePart_handles (regcomp : Bool) (pathlen : Nat) (part : Part) (s : FormState) :
    (part.isFile = false ∧ handlePart regcomp pathlen part s = (false, s)) ∨
    (part.isFile = true ∧ part.fopen = true ∧ ∃ s',
      handlePart regcomp pathlen part s = (true, s') ∧ s'.opened = s.opened ∧
      s'.handles = s.closed) ∨
    (part.isFile = true ∧ part.fopen = false ∧ ∃ s',
      handlePart regcomp pathlen part s = (false, s') ∧ s'.opened = s.opened + 1 ∧
      s'.handles = s.closed ++ [s.opened] ∧ (s'.ctx.fp = none ↔ part.Stored)) := by
  cases hfile : part.isFile with
  | false => exact Or.inl ⟨rfl, handlePart_get hfile⟩
  | true =>
      right
      -- A part that cannot be opened leaves the slot empty, whatever was in it.
      cases hopen : part.fopen with
      | true =>
          refine Or.inl ⟨rfl, rfl, _, handlePart_abort hfile hopen, rfl, ?_⟩
          exact List.append_nil _
      | false =>
          refine Or.inr ⟨rfl, rfl, ?_⟩
          cases hwrite : part.write with
          | true =>
              rcases @handlePart_lost regcomp pathlen part s hfile hopen hwrite with ⟨files, h⟩
              refine ⟨_, h, rfl, rfl, ⟨fun hnone => ?_, fun hstored => ?_⟩⟩
              · cases hnone
              · exact absurd (hstored.2.symm.trans hwrite) Bool.false_ne_true
          | false =>
              rcases @handlePart_stored regcomp pathlen part s hfile ⟨hopen, hwrite⟩ with
                ⟨files, h⟩
              refine ⟨_, h, rfl, ?_, ⟨fun _ => ⟨hopen, hwrite⟩, fun _ => rfl⟩⟩
              exact List.append_nil _

section Form

variable (regcomp : Bool) (pathlen : Nat) (malformed : Bool)

/-- One part opens one file at most, and accounts for no other. -/
theorem handlePart_leaks (part : Part) (s : FormState) (h : Leaks s) :
    Leaks (handlePart regcomp pathlen part s).2 := by
  have hclosed : s.closed.length ≤ s.handles.length := by
    rw [FormState.handles, List.length_append]
    omega
  unfold Leaks at h ⊢
  rcases handlePart_handles regcomp pathlen part s with ⟨_, hget⟩ |
    ⟨_, _, s', habort, hopened, hhandles⟩ | ⟨_, _, s', hstore, hopened, hhandles, _⟩
  · rw [hget]
    exact h
  · rw [habort, hopened, hhandles]
    omega
  · rw [hstore, hopened, hhandles, List.length_append, List.length_singleton]
    omega

/-- A file that is missing stays missing. -/
theorem form_leaks (parts : List Part) (seen : Nat) (s : FormState) (h : Leaks s) :
    Leaks (handleFormRequest regcomp pathlen malformed parts seen s).2 :=
  form_invariant regcomp pathlen malformed Leaks (handlePart_leaks regcomp pathlen) parts seen s h

/-- A part whose file cannot be opened, met with the slot empty: nothing is lost. -/
theorem Accounted.abort {s s' : FormState} (h : Accounted s) (hslot : s.ctx.fp = none)
    (hopened : s'.opened = s.opened) (hhandles : s'.handles = s.closed) : Accounted s' := by
  rw [Accounted, FormState.handles, hslot, Option.toList_none, List.append_nil] at h
  rw [Accounted, hopened, hhandles]
  exact h

/-- Met with the slot empty, a part that opens its file is accounted for. -/
theorem Accounted.found {s s' : FormState} (h : Accounted s) (hslot : s.ctx.fp = none)
    (hopened : s'.opened = s.opened + 1) (hhandles : s'.handles = s.closed ++ [s.opened]) :
    Accounted s' := by
  rw [Accounted, FormState.handles, hslot, Option.toList_none, List.append_nil] at h
  rw [Accounted, hopened, hhandles, List.range_succ]
  exact h.append_right _

/-- Met with a file in the slot, either part loses it. -/
theorem Accounted.leaks {s s' : FormState} (h : Accounted s) (hslot : s.ctx.fp ≠ none) {n : Nat}
    (hopened : s'.opened = s.opened + n) (hhandles : s'.handles.length = s.closed.length + n) :
    Leaks s' := by
  rcases Option.ne_none_iff_exists'.mp hslot with ⟨handle, hfp⟩
  have hlength : s.handles.length = s.opened := by
    rw [h.length_eq, List.length_range]
  rw [FormState.handles, hfp, List.length_append, Option.toList_some, List.length_singleton]
    at hlength
  rw [Leaks, hopened, hhandles]
  omega

/-- The slot is empty when a file part is met: at the first of these, and at each
    other because the one before was stored. -/
def EmptySlot (fp : Option Nat) (found : List Part) : Prop :=
  (fp = none ∨ found = []) ∧ ∀ p ∈ found.dropLast, p.Stored

theorem emptySlot_cons {fp fp' : Option Nat} {part : Part} (found : List Part)
    (hslot : fp' = none ↔ part.Stored) :
    EmptySlot fp (part :: found) ↔ fp = none ∧ EmptySlot fp' found := by
  unfold EmptySlot
  rw [hslot]
  cases found with
  | nil =>
      simp only [reduceCtorEq, or_false, List.dropLast_singleton, List.dropLast_nil,
        List.not_mem_nil, false_implies, implies_true, and_true, or_true]
  | cons q rest =>
      simp only [reduceCtorEq, or_false, List.dropLast_cons_cons, List.forall_mem_cons]

/-- A form that begins with every file accounted for ends so exactly when the slot
    is empty for every file part it gets to. -/
theorem form_handles : ∀ (parts : List Part) (seen : Nat) (s : FormState), Accounted s →
    (EmptySlot s.ctx.fp (foundFiles parts) ∧
      Accounted (handleFormRequest regcomp pathlen malformed parts seen s).2) ∨
    (¬ EmptySlot s.ctx.fp (foundFiles parts) ∧
      Leaks (handleFormRequest regcomp pathlen malformed parts seen s).2) := by
  intro parts
  induction parts with
  | nil =>
      intro seen s h
      exact Or.inl ⟨⟨Or.inr rfl, fun p hp => absurd hp List.not_mem_nil⟩, h⟩
  | cons part parts ih =>
      intro seen s h
      rcases handlePart_handles regcomp pathlen part s with ⟨hfile, hget⟩ |
        ⟨hfile, hopen, s', habort, hopened, hhandles⟩ |
        ⟨hfile, hopen, s', hstore, hopened, hhandles, hslot⟩
      · rw [handleFormRequest_cons regcomp pathlen malformed hget, if_neg Bool.false_ne_true,
          foundFiles, hfile, if_neg Bool.false_ne_true]
        exact ih (seen + 1) s h
      -- The part is the last one, whatever follows.
      · rw [handleFormRequest_cons regcomp pathlen malformed habort, if_pos rfl, foundFiles, hfile,
          if_pos rfl, hopen, if_pos rfl]
        by_cases hfp : s.ctx.fp = none
        · left
          exact ⟨⟨Or.inl hfp, fun p hp => absurd hp List.not_mem_nil⟩,
            h.abort hfp hopened hhandles⟩
        · right
          refine ⟨fun hempty => hempty.1.elim hfp (List.cons_ne_nil _ _), ?_⟩
          exact h.leaks hfp (n := 0) hopened (congrArg List.length hhandles)
      · rw [handleFormRequest_cons regcomp pathlen malformed hstore, if_neg Bool.false_ne_true,
          foundFiles, hfile, if_pos rfl, hopen, if_neg Bool.false_ne_true,
          emptySlot_cons (foundFiles parts) hslot]
        by_cases hfp : s.ctx.fp = none
        -- The rest begins with the slot as this part left it.
        · have hafter := ih (seen + 1) s' (h.found hfp hopened hhandles)
          rcases hafter with ⟨hempty, hall⟩ | ⟨hno, hleaks⟩
          · exact Or.inl ⟨⟨hfp, hempty⟩, hall⟩
          · exact Or.inr ⟨fun hempty => hno hempty.2, hleaks⟩
        · right
          refine ⟨fun hempty => hfp hempty.1, ?_⟩
          refine form_leaks regcomp pathlen malformed parts (seen + 1) s' (h.leaks hfp hopened ?_)
          rw [hhandles, List.length_append, List.length_singleton]

end Form

/-- The close after the form takes the file in the slot. -/
theorem FormState.close_closed (s : FormState) :
    s.close.closed = s.handles ∧ s.close.opened = s.opened := by
  unfold FormState.close FormState.handles
  cases hfp : s.ctx.fp with
  | none => exact ⟨(List.append_nil _).symm, rfl⟩
  | some h => exact ⟨rfl, rfl⟩

/-- With every file accounted for, the close closes the last. -/
theorem Accounted.closesEach {s : FormState} (h : Accounted s) : ClosesEach s.close := by
  intro handle hlt
  rw [s.close_closed.2] at hlt
  rw [s.close_closed.1, h.count_eq]
  exact List.count_eq_one_of_mem List.nodup_range (List.mem_range.mpr hlt)

/-- With a file missing, it is not closed. -/
theorem Leaks.not_closesEach {s : FormState} (h : Leaks s) : ¬ ClosesEach s.close := by
  intro hcloses
  have hsubset : List.range s.opened ⊆ s.handles := by
    intro handle hlt
    have hcount := hcloses handle (s.close_closed.2 ▸ List.mem_range.mp hlt)
    rw [s.close_closed.1] at hcount
    exact List.count_pos_iff.mp (by omega)
  have hlength := (List.nodup_range.subperm hsubset).length_le
  rw [List.length_range] at hlength
  exact Nat.not_lt_of_le hlength h

/-- For every request, whatever fails while it is handled: when the handler returns,
    every file it opened was closed exactly once, if and only if the method is
    another one or every file part its form gets to, but for the last, was
    stored. -/
theorem upload_closes_iff (fault : UploadFault) (req : UploadRequest) (w : World) :
    ClosesEach (uploadLogs fault req w) ↔
      req.method ≠ .lit "POST" ∨ ∀ p ∈ (foundFiles req.parts).dropLast, p.Stored := by
  unfold uploadLogs
  by_cases hmethod : req.method = .lit "POST"
  · rw [if_neg (not_not_intro hmethod), uploadForm]
    simp only [hmethod, ne_eq, not_true_eq_false, false_or]
    -- Every file is accounted for when the form ends, or one is lost for good.
    rcases form_handles fault.regcomp fault.pathlen req.malformed req.parts 0
      (FormState.initial w.files) (List.Perm.refl _) with ⟨hcond, haccounted⟩ | ⟨hcond, hleaks⟩
    · exact ⟨fun _ => hcond.2, fun _ => haccounted.closesEach⟩
    · exact ⟨fun h => absurd h hleaks.not_closesEach, fun h => absurd ⟨Or.inl rfl, h⟩ hcond⟩
  · rw [if_pos hmethod]
    exact ⟨fun _ => Or.inl hmethod, fun _ h hlt => absurd hlt (Nat.not_lt_zero h)⟩

/-- A part that cannot be written, and another file after it. -/
def lostThenStored : UploadRequest where
  method := .lit "POST"
  remoteAddr := .lit "10.0.0.7"
  parts := [⟨some (.lit "a.txt"), [104, 105], false, true⟩,
    ⟨some (.lit "b.txt"), [104, 105], false, false⟩]
  malformed := false

/-- The file of the part that cannot be written is never closed. -/
theorem upload_closes_lostPart : ¬ ∀ (fault : UploadFault) (req : UploadRequest) (w : World),
    ClosesEach (uploadLogs fault req w) := by
  intro h
  have hcount := h (UploadFault.none 512 (.lit "")) lostThenStored createdWorld 0 (by decide)
  exact absurd hcount (by decide)

end Server

end SendingSystem
