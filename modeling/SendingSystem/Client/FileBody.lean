import SendingSystem.Client.TlsClient
import SendingSystem.Lib.Loop

/-!
# Streaming a file

`writeTo` of the body that `buildFileBody` returns. A file given as an array is
cut into chunks by an `int` index that goes up by `UPLOAD_CHUNK`; a file behind a
`Uri` is copied read by read. Both report what was written so far after each
chunk.

The index is compared with the length before it is used, but it is advanced
first. The last chunk of an array that reaches into the last `UPLOAD_CHUNK`
bytes below `2^31` takes it to `2^31`, which as an `int` is the smallest of all:
the loop goes on, and the sink refuses the offset.

## Main definitions

* `JavaBytes`: The content of a Java array.
* `Chunk`, `InputStream`, `Provider`: What a `Uri` gives.
* `Sink`: What was written and reported so far.
* `bytesTurn`, `readLoop`: The two loops.
* `writeTo`: The body's content written to a sink.
* `Progress`: Values that increase up to what was written.
* `WritesWhole`: The sink gets the file, and the progress is reported.

## Theorems

* `bytesTurn_chunk`, `bytesTurn_end`: What one turn over an array does.
* `writeTo_bytes`: What comes of an array.
* `writeTo_uri`: What comes of a stream.
* `writeTo_whole_iff`: When both sources give the file.
-/

namespace SendingSystem

namespace Client

open Utf16 Connector

variable {P : Platform}

/-- The content of a Java array, whose length is an `int`. -/
structure JavaBytes where
  bytes : List UInt8
  length_le : bytes.length ≤ 2147483647

/-- `UPLOAD_CHUNK`. -/
def uploadChunk : Nat := 16 * 1024

/-- What one `read` into the buffer gives. -/
structure Chunk where
  bytes : List UInt8
  ne_nil : bytes ≠ []
  length_le : bytes.length ≤ uploadChunk

/-- An open stream: what it gives, and whether reading on throws in the end. -/
structure InputStream where
  reads : List Chunk
  throws : Bool

/-- What the provider behind a `Uri` answers: the size, if it tells; the stream,
    which may be null or not be had at all; the text of the `Uri`. -/
structure Provider where
  size : Option Int
  openInputStream : Except Failure (Option InputStream)
  uriText : JString

/-- What was written to the sink and reported to the listener so far. -/
structure Sink where
  bytes : List UInt8
  written : Int
  progress : List (Int × Int)

/-- Nothing yet. -/
def Sink.empty : Sink := ⟨[], 0, []⟩

/-- A Java `int`. -/
def toInt32 (x : Int) : Int := x.bmod (2 ^ 32)

/-- A Java `long`. -/
def toInt64 (x : Int) : Int := x.bmod (2 ^ 64)

/-- `notifyProgress`. -/
def notifyProgress (listening : Bool) (written total : Int) (progress : List (Int × Int)) :
    List (Int × Int) :=
  if listening then progress ++ [(written, total)] else progress

/-- `sink.write(source, offset, byteCount)`: the bytes written, nothing when the
    range is not one of the array. -/
def sinkWrite (source : List UInt8) (offset byteCount : Int) : Option (List UInt8) :=
  if 0 ≤ offset ∧ 0 ≤ byteCount ∧ offset + byteCount ≤ source.length then
    some ((source.drop offset.toNat).take byteCount.toNat)
  else none

/-- The chunk is written and reported. -/
def Sink.add (sink : Sink) (listening : Bool) (total : Int) (chunk : List UInt8) : Sink where
  bytes := sink.bytes ++ chunk
  written := toInt64 (sink.written + chunk.length)
  progress := notifyProgress listening (toInt64 (sink.written + chunk.length)) total sink.progress

/-- What `writeTo` ends with: the sink, and what it throws, if it does. -/
structure Streamed where
  sink : Sink
  ended : Except Failure Unit

/-- One turn of the loop over an array; the state is `i` and the sink. -/
def bytesTurn (data : List UInt8) (listening : Bool) (s : Int × Sink) :
    Option ((Int × Sink) ⊕ Streamed) :=
  if s.1 < data.length then
    let n := min (uploadChunk : Int) (toInt32 (data.length - s.1))
    match sinkWrite data s.1 n with
    | none => some (.inr ⟨s.2, .error .thrown⟩)
    | some chunk => some (.inl (toInt32 (s.1 + uploadChunk), s.2.add listening data.length chunk))
  else some (.inr ⟨s.2, .ok ()⟩)

/-- The loop over a stream. -/
def readLoop (listening : Bool) (total : Int) : List Chunk → Sink → Sink
  | [], sink => sink
  | chunk :: reads, sink => readLoop listening total reads (sink.add listening total chunk.bytes)

/-- `writeTo`. Nothing means that the fuel was not enough. -/
def writeTo (fuel : Nat) (c : Connector P) (provider : Provider) : Option Streamed :=
  match c.fileBytes with
  | some data => Loop.run (bytesTurn data c.progressListener.isSome) fuel (0, .empty)
  | none =>
    if c.fileUri.isNone || c.contentResolver.isNone then
      some ⟨.empty, .error (.ioException (lit "No source to upload"))⟩
    else
      match provider.openInputStream with
      | .error e => some ⟨.empty, .error e⟩
      | .ok none => some ⟨.empty, .error (.ioException (lit "Cannot open " ++ provider.uriText))⟩
      | .ok (some stream) =>
        some ⟨readLoop c.progressListener.isSome (provider.size.getD (-1)) stream.reads .empty,
          if stream.throws then .error .thrown else .ok ()⟩

/-- What was reported increases strictly, up to what was written; without anything
    written, or without a listener, nothing was. -/
structure Progress (listening : Bool) (progress : List (Int × Int)) (written : Int) : Prop where
  increasing : (progress.map Prod.fst).Pairwise (· < ·)
  le : ∀ v ∈ progress.map Prod.fst, v ≤ written
  last : listening = true → 0 < written → (progress.map Prod.fst).getLast? = some written
  none : (listening = false ∨ written = 0) → progress = []

/-- The body is the file: written without an exception, every byte once and in
    order, with the progress reported. -/
def WritesWhole (c : Connector P) (provider : Provider) (data : List UInt8) : Prop :=
  ∃ fuel out, writeTo fuel c provider = some out ∧ out.ended = .ok () ∧ out.sink.bytes = data ∧
    Progress c.progressListener.isSome out.sink.progress data.length

/-- One more chunk. -/
theorem Progress.add {listening : Bool} {progress : List (Int × Int)} {written n total : Int}
    (h : Progress listening progress written) (hwritten : 0 ≤ written) (hn : 0 < n) :
    Progress listening (notifyProgress listening (written + n) total progress) (written + n) := by
  cases listening with
  | false =>
      have hnil := h.none (Or.inl rfl)
      subst hnil
      refine ⟨List.Pairwise.nil, fun v hv => absurd hv List.not_mem_nil, fun h => ?_, fun _ => rfl⟩
      exact absurd h Bool.false_ne_true
  | true =>
      rw [notifyProgress, if_pos rfl]
      refine ⟨?_, fun v hv => ?_, fun _ _ => ?_, fun hzero => ?_⟩
      -- What was reported before is at most what was written before.
      · rw [List.map_append, List.pairwise_append]
        refine ⟨h.increasing, List.pairwise_singleton _ _, fun v hv v' hv' => ?_⟩
        have hle := h.le v hv
        rw [List.map_singleton, List.mem_singleton] at hv'
        rw [hv']
        omega
      · rw [List.map_append, List.mem_append] at hv
        rcases hv with hv | hv
        · have hle := h.le v hv
          omega
        · exact Int.le_of_eq (List.mem_singleton.mp hv)
      · rw [List.map_append, List.map_singleton, List.getLast?_append]
        rfl
      · rcases hzero with hlisten | hzero
        · exact absurd hlisten.symm Bool.false_ne_true
        · omega

theorem Progress.empty (listening : Bool) : Progress listening [] 0 :=
  ⟨List.Pairwise.nil, fun v hv => absurd hv List.not_mem_nil, fun _ h => absurd h (by omega),
    fun _ => rfl⟩

theorem toInt32_of_lt {x : Int} (hle : -2147483648 ≤ x) (hlt : x < 2147483648) :
    toInt32 x = x := by
  rw [toInt32, Int.bmod_eq_of_le]
  · omega
  · omega

theorem toInt64_of_lt {x : Int} (hle : 0 ≤ x) (hlt : x < 9223372036854775808) :
    toInt64 x = x := by
  rw [toInt64, Int.bmod_eq_of_le]
  · omega
  · omega

/-- The state of the loop when `e` bytes, or the whole array, are written. -/
structure BytesInv (data : List UInt8) (listening : Bool) (e : Nat) (s : Int × Sink) : Prop where
  whole : e % uploadChunk = 0
  near : e = 0 ∨ e < data.length + uploadChunk
  index : s.1 = toInt32 e
  bytes : s.2.bytes = data.take e
  written : s.2.written = (min e data.length : Nat)
  progress : Progress listening s.2.progress s.2.written

/-- The next chunk is written and the index goes up. -/
theorem bytesTurn_chunk {data : List UInt8} (hlen : data.length ≤ 2147483647) {listening : Bool}
    {e : Nat} {s : Int × Sink} (h : BytesInv data listening e s) (hlt : e < data.length) :
    ∃ s', bytesTurn data listening s = some (.inl s') ∧
      BytesInv data listening (e + uploadChunk) s' := by
  rcases h with ⟨hwhole, _, hindex, hbytes, hwritten, hprogress⟩
  have hi : s.1 = e := by rw [hindex, toInt32_of_lt (by omega) (by omega)]
  have hn : min (uploadChunk : Int) (toInt32 (data.length - s.1))
      = (min uploadChunk (data.length - e) : Nat) := by
    rw [hi, toInt32_of_lt (by omega) (by omega)]
    omega
  have hrange : sinkWrite data s.1 (min uploadChunk (data.length - e) : Nat)
      = some ((data.drop e).take (min uploadChunk (data.length - e))) := by
    rw [sinkWrite, if_pos (by omega), hi, Int.toNat_natCast, Int.toNat_natCast]
  have hsize : ((data.drop e).take (min uploadChunk (data.length - e))).length
      = min uploadChunk (data.length - e) := by
    rw [List.length_take, List.length_drop]
    omega
  have hpos : 0 < uploadChunk := by decide
  refine ⟨_, by rw [bytesTurn, if_pos (by omega)]; simp only [hn, hrange]; rfl, ?_⟩
  have hlong : toInt64 (s.2.written + (min uploadChunk (data.length - e) : Nat))
      = s.2.written + (min uploadChunk (data.length - e) : Nat) := by
    rw [toInt64_of_lt (by omega) (by omega)]
  refine ⟨by rw [Nat.add_mod_right]; exact hwhole, Or.inr (by omega), ?_, ?_, ?_, ?_⟩
  · simp only [hi]
    rfl
  -- What is missing of a chunk at the end is missing from `take`, too.
  · simp only [Sink.add, hbytes, List.take_add]
    rw [List.append_cancel_left_eq]
    rcases Nat.le_total uploadChunk (data.length - e) with hle | hle
    · rw [Nat.min_eq_left hle]
    · rw [Nat.min_eq_right hle, List.take_of_length_le (by rw [List.length_drop]),
        List.take_of_length_le (by rw [List.length_drop]; exact hle)]
  · simp only [Sink.add, hsize]
    rw [hlong, hwritten]
    omega
  · simp only [Sink.add, hsize, hlong]
    exact hprogress.add (by omega) (by omega)

/-- When everything is written the loop ends, unless the index has wrapped. -/
theorem bytesTurn_end {data : List UInt8} (hlen : data.length ≤ 2147483647) {listening : Bool}
    {e : Nat} {s : Int × Sink} (h : BytesInv data listening e s) (hge : data.length ≤ e) :
    bytesTurn data listening s = some (.inr ⟨s.2,
      if data.length ≤ 2147483648 - uploadChunk then .ok () else .error .thrown⟩) := by
  have hwhole := h.whole
  have hnear := h.near
  have hchunk : uploadChunk = 16384 := rfl
  rw [hchunk] at hwhole hnear
  by_cases hfits : data.length ≤ 2147483648 - uploadChunk
  · have hi : s.1 = e := by rw [h.index, toInt32_of_lt (by omega) (by omega)]
    rw [bytesTurn, if_neg (by omega), if_pos hfits]
  -- The index is `2^31` here, so it compares as the least `int`.
  · have he : e = 2147483648 := by omega
    have hi : s.1 = -2147483648 := by
      rw [h.index, he]
      rfl
    -- The refusal is for the offset already.
    have hrange : sinkWrite data s.1 (min (uploadChunk : Int) (toInt32 (data.length - s.1)))
        = none := by rw [sinkWrite, if_neg (by omega)]
    rw [bytesTurn, if_pos (by omega), if_neg hfits]
    simp only [hrange]

/-- An array is written whole, and then the loop ends or, in the last chunk below
    `2^31`, throws. -/
theorem writeTo_bytes (data : JavaBytes) (listening : Bool) :
    ∃ fuel out, Loop.run (bytesTurn data.bytes listening) fuel (0, .empty) = some out ∧
      out.sink.bytes = data.bytes ∧ Progress listening out.sink.progress data.bytes.length ∧
      out.ended
        = if data.bytes.length ≤ 2147483648 - uploadChunk then .ok () else .error .thrown := by
  rcases data with ⟨data, hlen⟩
  refine ⟨data.length + 1, ?_⟩
  refine Loop.run_total (bytesTurn data listening)
    (fun s => ∃ e, BytesInv data listening e s)
    (fun out => out.sink.bytes = data ∧ Progress listening out.sink.progress data.length ∧
      out.ended = if data.length ≤ 2147483648 - uploadChunk then .ok () else .error .thrown)
    (fun s => data.length - s.2.bytes.length) (fun s hs => ?_) (data.length + 1) (0, .empty)
    ⟨0, ?_⟩ (by simp only; omega)
  · rcases hs with ⟨e, he⟩
    -- A turn inside the array writes a chunk; at its end the loop is left, or the index
    -- wraps.
    by_cases hlt : e < data.length
    · left
      rcases bytesTurn_chunk hlen he hlt with ⟨s', hturn, hs'⟩
      refine ⟨s', hturn, ⟨_, hs'⟩, ?_⟩
      have hpos : 0 < uploadChunk := by decide
      rw [hs'.bytes, he.bytes, List.length_take, List.length_take]
      omega
    · right
      have hall : min e data.length = data.length := by omega
      refine ⟨_, bytesTurn_end hlen he (by omega), ?_, ?_, rfl⟩
      · simp only
        rw [he.bytes, List.take_of_length_le (by omega)]
      · have hprogress := he.progress
        rw [he.written, hall] at hprogress
        exact hprogress
  · exact ⟨rfl, Or.inl rfl, rfl, rfl, by rw [Nat.zero_min]; rfl, Progress.empty listening⟩

/-- A stream is written read by read. -/
theorem readLoop_spec (listening : Bool) (total : Int) : ∀ (reads : List Chunk) (sink : Sink),
    sink.written = sink.bytes.length → Progress listening sink.progress sink.written →
    (sink.bytes ++ reads.flatMap Chunk.bytes).length ≤ 2147483647 →
    (readLoop listening total reads sink).bytes = sink.bytes ++ reads.flatMap Chunk.bytes ∧
      Progress listening (readLoop listening total reads sink).progress
        (sink.bytes ++ reads.flatMap Chunk.bytes).length := by
  intro reads
  induction reads with
  | nil =>
      intro sink hwritten hprogress _
      rw [readLoop, List.flatMap_nil, List.append_nil, ← hwritten]
      exact ⟨rfl, hprogress⟩
  | cons chunk reads ih =>
      intro sink hwritten hprogress hlen
      rw [List.flatMap_cons, ← List.append_assoc] at hlen ⊢
      have hpos : 0 < chunk.bytes.length := List.length_pos_of_ne_nil chunk.ne_nil
      -- The count is a `long`, so it stays the number of bytes.
      have hlong : toInt64 (sink.written + chunk.bytes.length)
          = sink.written + chunk.bytes.length := by
        rw [List.length_append, List.length_append] at hlen
        exact toInt64_of_lt (by omega) (by omega)
      refine ih (sink.add listening total chunk.bytes) ?_ ?_ hlen
      · simp only [Sink.add, List.length_append]
        rw [hlong, hwritten]
        omega
      · simp only [Sink.add, hlong]
        exact hprogress.add (by omega) (by omega)

/-- A file behind a `Uri` is written whole, however it is read. -/
theorem writeTo_uri (c : Connector P) (cr : P.ContentResolver) (uri : P.Uri)
    (name : Option JString) (data : JavaBytes) (size : Option Int) (uriText : JString)
    (reads : List Chunk) (hreads : reads.flatMap Chunk.bytes = data.bytes) :
    WritesWhole (c.setFileUri cr uri name) ⟨size, .ok (some ⟨reads, false⟩), uriText⟩
      data.bytes := by
  have hloop := readLoop_spec c.progressListener.isSome (size.getD (-1)) reads .empty rfl
    (Progress.empty _) (by
      rw [hreads]
      exact data.length_le)
  rw [hreads] at hloop
  exact ⟨0, _, rfl, rfl, hloop.1, hloop.2⟩

/-- An array is written without an exception when it ends before the last chunk
    below `2^31`. -/
theorem writesWhole_bytes_iff (c : Connector P) (name : Option JString) (provider : Provider)
    (data : JavaBytes) :
    WritesWhole (c.setFileBytes (some data.bytes) name) provider data.bytes ↔
      data.bytes.length ≤ 2147483648 - uploadChunk := by
  rcases writeTo_bytes data c.progressListener.isSome with
    ⟨fuel, out, hrun, hbytes, hprogress, hended⟩
  constructor
  · rintro ⟨fuel', out', hrun', hok, _⟩
    rw [← Loop.run_unique hrun hrun'] at hok
    rw [hok] at hended
    by_contra hlong
    rw [if_neg hlong] at hended
    simp only [reduceCtorEq] at hended
  · intro hfits
    rw [if_pos hfits] at hended
    exact ⟨fuel, out, hrun, hended, hbytes, hprogress⟩

/-- For every file of up to `2^31 - 1` bytes, given as an array or behind a `Uri` and
    read in any non-empty pieces: the body is the file on both ways exactly when
    the file has at most `2^31 - UPLOAD_CHUNK` bytes. -/
theorem writeTo_whole_iff (c : Connector P) (cr : P.ContentResolver) (uri : P.Uri)
    (name : Option JString) (data : JavaBytes) :
    ((∀ provider, WritesWhole (c.setFileBytes (some data.bytes) name) provider data.bytes) ∧
      ∀ (size : Option Int) (uriText : JString) (reads : List Chunk),
        reads.flatMap Chunk.bytes = data.bytes →
        WritesWhole (c.setFileUri cr uri name) ⟨size, .ok (some ⟨reads, false⟩), uriText⟩
          data.bytes) ↔
    data.bytes.length ≤ 2147483648 - uploadChunk := by
  constructor
  · rintro ⟨hbytes, _⟩
    exact (writesWhole_bytes_iff c name ⟨none, .error .thrown, []⟩ data).mp (hbytes _)
  · intro hfits
    exact ⟨fun provider => (writesWhole_bytes_iff c name provider data).mpr hfits,
      fun size uriText reads hreads => writeTo_uri c cr uri name data size uriText reads hreads⟩

/-- The longest array there is. -/
def longestArray : JavaBytes := ⟨List.replicate 2147483647 0, Nat.le_of_eq List.length_replicate⟩

/-- The longest array is written by a call that throws. -/
theorem writeTo_longestArray : ¬ ∀ (P : Platform) (c : Connector P) (provider : Provider)
    (data : JavaBytes),
    WritesWhole (c.setFileBytes (some data.bytes) none) provider data.bytes := by
  intro h
  have hfits := (writesWhole_bytes_iff _ _ _ longestArray).mp
    (h pinningPlatform .new ⟨none, .error .thrown, []⟩ longestArray)
  rw [longestArray, List.length_replicate] at hfits
  exact absurd hfits (by decide)

end Client

end SendingSystem
