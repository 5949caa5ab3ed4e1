import SendingSystem.Client.LastSend
import SendingSystem.Lib.Calendar
import SendingSystem.Lib.Utf8Order
import SendingSystem.Server.HttpJson

/-!
# The times of messages

Both programs store the time of a message as a text, `yyyy-MM-dd HH:mm:ss` in local
time. `now_timestamp` has it from `strftime`, the view model from `SimpleDateFormat`,
which takes its digits from the locale. From the first year of the calendar to the last
of four digits the bytes of such texts are in the order of the local times, across the
two programs where the locale has the usual digits. So what `getLastSuccessful` answers
is up to the clock: it is the latest success for certain when the clock has not shown its
second or a later one before.

## Main definitions

* `Zone`, `localTime`: What a clock shows.
* `nowTimestamp`, `sdfFormat`: The texts.
* `SendCall.server`: The server a call sends to.
* `succeeded`: The calls of a run that recorded a success.
* `MadeAt`: The second a call was made at.

## Theorems

* `clockText_strictMonoOn`: The texts are in the order of the seconds.
* `timestamps_sort`: So they are across the two programs.
* `clockKey_strictMonoOn`: So they are for the query.
* `prefill_latest_iff`: What the fields are filled with after any run of calls.
-/

namespace SendingSystem

open CString Utf16 Numerals Calendar Server Client

/-- What a time zone adds to an instant, in seconds. -/
abbrev Zone : Type := Int → Int

/-- What a clock in a zone shows at an instant. -/
def localTime (zone : Zone) (instant : Int) : Int := instant + zone instant

/-- The fields of a time, the year at least as wide as given, and what separates them. -/
def timeLayout (yearWidth : Nat) : List (Nat × List Nat) :=
  [(yearWidth, [45]), (2, [45]), (2, [32]), (2, [58]), (2, [58]), (2, [])]

/-- The points of the text of a second. -/
def clockText (zeroDigit yearWidth : Nat) (second : Int) : List Nat :=
  fields (zeroDigit + ·) (timeLayout yearWidth) (timeOf second)

/-- `now_timestamp(buffer, buffer_capacity)`: `strftime` does not fill up `%Y`, and
    leaves nothing certain in a buffer that is too small. -/
def Server.nowTimestamp (zone : Zone) (now : Int) (bufferCapacity : Nat) : Option CStr :=
  let text := (clockText 48 1 (localTime zone now)).map Nat.toUInt8
  if text.length < bufferCapacity then some (heapString text) else none

/-- `sdf.format(new Date(millis))` for a locale with that digit zero. -/
def Client.sdfFormat (zeroDigit : UInt16) (zone : Zone) (millis : Int) : JString :=
  (clockText zeroDigit.toNat 4 (localTime zone (millis / 1000))).map Nat.toUInt16

/-- A digit zero with the other nine behind it. -/
def ZeroDigit (z : UInt16) : Prop :=
  z.toNat + 9 < 0xD800 ∨ 0xE000 ≤ z.toNat ∧ z.toNat + 9 < 0x10000

section Text

variable {second : Int} (h : second ∈ fourDigitYears)
include h

theorem fits_timeOf : Fits (timeLayout 4) (timeOf second) := by
  have hfits : List.Forall₂ (fun width n => n < 10 ^ width) ((timeLayout 4).map Prod.fst)
      (timeOf second) := timeOf_fits h
  exact List.forall₂_map_left_iff.mp hfits

/-- A year of four digits is not filled up. -/
theorem clockText_width (zeroDigit : Nat) : clockText zeroDigit 1 second
    = clockText zeroDigit 4 second := by
  have hyear : 10 ^ 3 ≤ (yearOf (second / 86400)).toNat := by
    have hle := (yearOf_fourDigits h).1
    omega
  have hnumeral := numeral_of_le (zeroDigit + ·) hyear
  exact congrArg (· ++ _) hnumeral.symm

end Text

/-- The texts are in the order of the seconds. -/
theorem clockText_strictMonoOn (zeroDigit : Nat) :
    StrictMonoOn (clockText zeroDigit 4) fourDigitYears := by
  have hdigit : StrictMonoOn (zeroDigit + ·) (Set.Iio 10) :=
    fun m _ n _ hlt => Nat.add_lt_add_left hlt zeroDigit
  exact (fields_strictMonoOn hdigit (timeLayout 4)).comp timeOf_strictMonoOn
    fun second h => fits_timeOf h

/-- A text consists of digits and ASCII punctuation. -/
theorem mem_clockText {zeroDigit yearWidth c : Nat} {second : Int}
    (h : c ∈ clockText zeroDigit yearWidth second) :
    (∃ d < 10, c = zeroDigit + d) ∨ c ∈ [45, 32, 58] := by
  rcases mem_fields h with hdigit | ⟨field, hfield, hc⟩
  · exact Or.inl hdigit
  · have hall : ∀ field ∈ timeLayout yearWidth, ∀ c ∈ field.2, c ∈ [45, 32, 58] := by
      simp [timeLayout]
    exact Or.inr (hall field hfield c hc)

/-- `now_timestamp` fills a buffer of 20 bytes. -/
theorem nowTimestamp_eq {zone : Zone} {now : Int} (h : localTime zone now ∈ fourDigitYears)
    {bufferCapacity : Nat} (hcapacity : 20 ≤ bufferCapacity) :
    ∃ text, nowTimestamp zone now bufferCapacity = some text ∧
      text.bytes.map UInt8.toNat = clockText 48 4 (localTime zone now) := by
  have hlength : (clockText 48 4 (localTime zone now)).length = 19 :=
    length_fields (48 + ·) (fits_timeOf h)
  -- The text is ASCII without a zero.
  have hbounds : ∀ c ∈ clockText 48 4 (localTime zone now), 0 < c ∧ c < 128 := by
    intro c hc
    rcases mem_clockText hc with ⟨d, hd, rfl⟩ | hmark
    · omega
    · have hall : ∀ c ∈ [45, 32, 58], 0 < c ∧ c < 128 := by decide
      exact hall c hmark
  have hback : ((clockText 48 4 (localTime zone now)).map Nat.toUInt8).map UInt8.toNat
      = clockText 48 4 (localTime zone now) := by
    rw [List.map_map]
    refine (List.map_congr_left fun c hc => ?_).trans (List.map_id _)
    exact Nat.mod_eq_of_lt (by have := (hbounds c hc).2; omega)
  have hnul : 0 ∉ (clockText 48 4 (localTime zone now)).map Nat.toUInt8 := by
    intro h0
    have hzero := List.mem_map_of_mem (f := UInt8.toNat) h0
    rw [hback] at hzero
    exact absurd (hbounds _ hzero).1 (Nat.lt_irrefl 0)
  refine ⟨heapString ((clockText 48 4 (localTime zone now)).map Nat.toUInt8), ?_, ?_⟩
  · unfold nowTimestamp
    rw [clockText_width h]
    exact if_pos (by rw [List.length_map, hlength]; omega)
  · rw [heapString_bytes hnul, hback]

/-- The points of a text are units that are no surrogates. -/
theorem clockText_unit {z : UInt16} (hz : ZeroDigit z) {yearWidth c : Nat} {second : Int}
    (h : c ∈ clockText z.toNat yearWidth second) :
    c < 0xD800 ∨ 0xE000 ≤ c ∧ c < 0x10000 := by
  unfold ZeroDigit at hz
  rcases mem_clockText h with ⟨d, hd, rfl⟩ | hmark
  · omega
  · have hall : ∀ c ∈ [45, 32, 58], c < 0xD800 := by decide
    exact Or.inl (hall c hmark)

/-- The bytes of what `SimpleDateFormat` gives. -/
theorem utf8_sdfFormat {z : UInt16} (hz : ZeroDigit z) (zone : Zone) (millis : Int) :
    (utf8 (sdfFormat z zone millis)).map UInt8.toNat
      = pointBytes (clockText z.toNat 4 (localTime zone (millis / 1000))) := by
  have hunit : ∀ c ∈ clockText z.toNat 4 (localTime zone (millis / 1000)),
      c.toUInt16.toNat = c := by
    intro c hc
    exact toNat_unit (by have := clockText_unit hz hc; omega)
  rw [utf8, codePoints_of_noHigh, sdfFormat, List.map_map, pointBytes]
  · refine congrArg (fun l => (List.flatMap utf8Point l).map UInt8.toNat) ?_
    exact (List.map_congr_left hunit).trans (List.map_id _)
  · intro u hu
    rcases List.mem_map.mp hu with ⟨c, hc, rfl⟩
    rw [Bool.eq_false_iff, ne_eq, isHigh_iff, hunit c hc]
    have hc := clockText_unit hz hc
    omega

/-- The text a server with one clock writes and the text a client with another one
    writes, where the locale has the usual digits: their bytes are in the order of what
    the clocks show, and the same when that is. -/
theorem timestamps_sort (serverZone clientZone : Zone) {now millis : Int}
    (h : localTime serverZone now ∈ fourDigitYears)
    (h' : localTime clientZone (millis / 1000) ∈ fourDigitYears) {bufferCapacity : Nat}
    (hcapacity : 20 ≤ bufferCapacity) :
    ∃ text, nowTimestamp serverZone now bufferCapacity = some text ∧
      (text.bytes.map UInt8.toNat < (utf8 (sdfFormat 48 clientZone millis)).map UInt8.toNat ↔
        localTime serverZone now < localTime clientZone (millis / 1000)) ∧
      (text.bytes = utf8 (sdfFormat 48 clientZone millis) ↔
        localTime serverZone now = localTime clientZone (millis / 1000)) := by
  rcases nowTimestamp_eq h hcapacity with ⟨text, htext, hbytes⟩
  have hsdf := utf8_sdfFormat (Or.inl (by decide) : ZeroDigit 48) clientZone millis
  have hascii : ∀ c ∈ clockText 48 4 (localTime clientZone (millis / 1000)), c < 0x80 := by
    intro c hc
    rcases mem_clockText hc with ⟨d, hd, rfl⟩ | hmark
    · omega
    · have hall : ∀ c ∈ [45, 32, 58], c < 0x80 := by decide
      exact hall c hmark
  have hmono := clockText_strictMonoOn 48
  rw [(by rfl : (48 : UInt16).toNat = 48), pointBytes_ascii hascii] at hsdf
  refine ⟨text, htext, ?_, ?_⟩
  · rw [hbytes, hsdf]
    exact hmono.lt_iff_lt h h'
  · rw [← (List.map_injective_iff.mpr fun a b => UInt8.toNat_inj.mp :
      Function.Injective (List.map UInt8.toNat)).eq_iff, hbytes, hsdf]
    exact hmono.eq_iff_eq h h'

/-- A message the server stamps in the second of a message of the client. -/
theorem timestamps_sort_same : ∃ text, nowTimestamp (fun _ => 10800) 1772366400 32 = some text ∧
    text.bytes = utf8 (sdfFormat 48 (fun _ => 0) 1772377200999) := by
  have h : localTime (fun _ => 10800) 1772366400 ∈ fourDigitYears := ⟨by decide, by decide⟩
  have h' : localTime (fun _ => 0) (1772377200999 / 1000) ∈ fourDigitYears :=
    ⟨by decide, by decide⟩
  rcases timestamps_sort (fun _ => 10800) (fun _ => 0) h h' (by decide : 20 ≤ 32) with
    ⟨text, htext, _, heq⟩
  exact ⟨text, htext, heq.mpr (by decide)⟩

section Prefill

variable {P : Client.Platform}

/-- The address, the port and the TLS flag a call sends to. -/
def Client.SendCall.server (c : SendCall P) : Option (Option JString × Int × Bool) :=
  match validate c.env c.cfg with
  | .ok serverPort => some (c.cfg.serverIp, serverPort, c.cfg.isSSLEncryptEnabled)
  | .error _ => none

/-- The calls of a run that recorded a success. -/
def succeeded : Client.Database → List (SendCall P) → List (SendCall P)
  | _, [] => []
  | db, c :: cs =>
    if (recordedSuccess db c).isSome then c :: succeeded (c.run db) cs
    else succeeded (c.run db) cs

/-- A call was made when a clock showed that second. -/
def MadeAt (z : UInt16) (zone : Zone) (c : SendCall P) (second : Int) : Prop :=
  second ∈ fourDigitYears ∧ ∃ millis, localTime zone (millis / 1000) = second ∧
    c.env.sendingTime = sdfFormat z zone millis

/-- The message of a call has the time of the call. -/
theorem recordedSuccess_time {db : Client.Database} {c : SendCall P} {r : Int × Client.Message}
    (h : recordedSuccess db c = some r) : r.2.sendingTime = some c.env.sendingTime := by
  unfold recordedSuccess at h
  rcases sendData_messages c.env ⟨c.connector, c.isSending, db⟩ c.cfg with hsame | ⟨r', hadd⟩
  · have hrun : messages (c.run db) = messages db := hsame
    rw [hrun, List.drop_length, List.find?_nil] at h
    exact absurd h.symm (Option.some_ne_none r)
  · have hrun : messages (c.run db) = messages db ++ [r'] := hadd
    rw [hrun, List.drop_left] at h
    rw [List.mem_singleton.mp (List.mem_of_find?_eq_some h)]
    rcases sendData_recorded hadd with ⟨serverPort, conn, _, _, _, hmessage⟩
    rw [hmessage]
    cases ((configured c.connector c.cfg serverPort).sendData c.env.network).1 <;> rfl

/-- The successes a run adds are those of the calls that recorded one, in order. -/
theorem successes_succeeded (cs : List (SendCall P)) (db : Client.Database) :
    ∃ added, successes (runSends db cs) = successes db ++ added ∧
      List.Forall₂ (fun (r : Int × Client.Message) (c : SendCall P) =>
        r.2.sendingTime = some c.env.sendingTime) added (succeeded db cs) := by
  induction cs generalizing db with
  | nil => exact ⟨[], (List.append_nil _).symm, .nil⟩
  | cons c cs ih =>
      rcases ih (c.run db) with ⟨added, hadded, htimes⟩
      unfold runSends succeeded
      rw [hadded, successes_run, List.append_assoc]
      cases hsuccess : recordedSuccess db c with
      | none => exact ⟨added, rfl, htimes⟩
      | some r => exact ⟨r :: added, rfl, .cons (recordedSuccess_time hsuccess) htimes⟩

/-- The latest success of a run is that of the last call that recorded one, and the
    fields are filled with its server. -/
theorem prefill_latestSuccess (cs : List (SendCall P)) (db : Client.Database) :
    (latestSuccess db cs = none ∧ succeeded db cs = []) ∨
      ∃ r c, latestSuccess db cs = some r ∧ (succeeded db cs).getLast? = some c ∧
        prefill (runSends db cs) (some r) = c.server := by
  induction cs generalizing db with
  | nil => exact Or.inl ⟨rfl, rfl⟩
  | cons c cs ih =>
      unfold latestSuccess succeeded runSends
      rcases ih (c.run db) with ⟨hnone, hnil⟩ | ⟨r, c', hlatest, hlast, hprefill⟩
      · rw [hnone, hnil, Option.none_or]
        cases hsuccess : recordedSuccess db c with
        | none => exact Or.inl ⟨rfl, rfl⟩
        | some r =>
            rcases prefill_recorded hsuccess cs with ⟨serverPort, hvalid, hprefill⟩
            refine Or.inr ⟨r, c, rfl, rfl, ?_⟩
            rw [hprefill, SendCall.server, hvalid]
      -- A later success hides this one's.
      · refine Or.inr ⟨r, c', by rw [hlatest, Option.some_or], ?_, hprefill⟩
        split
        · rw [List.getLast?_cons, hlast, Option.getD_some]
        · exact hlast

variable {z : UInt16} {zone : Zone}

/-- What the query compares, in terms of the clock. -/
theorem timeKey_madeAt (hz : ZeroDigit z) {r : Int × Client.Message} {c : SendCall P} {second : Int}
    (htime : r.2.sendingTime = some c.env.sendingTime) (hmade : MadeAt z zone c second) :
    timeKey r = ((pointBytes (clockText z.toNat 4 second) : List Nat) : WithBot (List Nat)) := by
  rcases hmade.2 with ⟨millis, rfl, hformat⟩
  unfold timeKey
  rw [htime, hformat]
  exact congrArg _ (utf8_sdfFormat hz zone millis)

theorem timeKeys_madeAt (hz : ZeroDigit z) {rows : List (Int × Client.Message)}
    {calls : List (SendCall P)} {seconds : List Int}
    (htimes : List.Forall₂ (fun (r : Int × Client.Message) (c : SendCall P) =>
      r.2.sendingTime = some c.env.sendingTime) rows calls)
    (hmade : List.Forall₂ (MadeAt z zone) calls seconds) :
    List.Forall₂ (fun r second => second ∈ fourDigitYears ∧ timeKey r
      = ((pointBytes (clockText z.toNat 4 second) : List Nat) : WithBot (List Nat)))
      rows seconds := by
  induction htimes generalizing seconds with
  | nil =>
      rw [List.forall₂_nil_left_iff.mp hmade]
      exact .nil
  | cons htime _ ih =>
      rcases List.forall₂_cons_left_iff.mp hmade with ⟨second, rest, hfirst, hrest, rfl⟩
      exact .cons ⟨hfirst.1, timeKey_madeAt hz htime hfirst⟩ (ih hrest)

/-- What the query compares is in the order of the clock. -/
theorem clockKey_strictMonoOn (hz : ZeroDigit z) :
    StrictMonoOn (fun second => ((pointBytes (clockText z.toNat 4 second) : List Nat) :
      WithBot (List Nat))) fourDigitYears := by
  have hbytes : StrictMonoOn (fun second => pointBytes (clockText z.toNat 4 second))
      fourDigitYears := by
    refine pointBytes_strictMonoOn.comp (clockText_strictMonoOn z.toNat) fun second _ c hc => ?_
    have hunit := clockText_unit hz hc
    unfold Scalar
    omega
  exact WithBot.coe_strictMono.comp_strictMonoOn hbytes

/-- After any run of `SendData` calls, in a locale and a zone, with the seconds a clock
    showed at the calls that recorded a success: the query gives the latest success for
    certain exactly when the clock showed an earlier second at every other one, and
    then the address, the port and the TLS flag are filled with those of the last call
    that succeeded. -/
theorem prefill_latest_iff (hz : ZeroDigit z) (zone : Zone) (cs : List (SendCall P))
    {seconds : List Int}
    (hmade : List.Forall₂ (MadeAt z zone) (succeeded createdDatabase cs) seconds) :
    ((∀ answer, GetsLastSuccessful (runSends createdDatabase cs) answer →
        answer = latestSuccess createdDatabase cs) ↔
      ∀ latest, seconds.getLast? = some latest → ∀ second ∈ seconds.dropLast, second < latest) ∧
    prefill (runSends createdDatabase cs) (latestSuccess createdDatabase cs)
      = (succeeded createdDatabase cs).getLast?.bind SendCall.server := by
  constructor
  · rcases successes_succeeded cs createdDatabase with ⟨added, hadded, htimes⟩
    have hempty : successes createdDatabase = [] := by rfl
    rw [hempty, List.nil_append] at hadded
    -- Rows have ids of their own.
    have hnodup : added.Nodup := by
      have hascending := (Db.rows_ascending (S := clientSchema) (runSends createdDatabase cs)
        .message).filter isSuccess
      rw [← hadded]
      refine List.Pairwise.imp (fun {r r'} hlt heq => ?_) hascending
      rw [heq] at hlt
      exact Int.lt_irrefl _ hlt
    rw [latestSuccess_eq, hadded]
    unfold GetsLastSuccessful
    rw [hadded]
    exact topRow_getLast_values_iff (clockKey_strictMonoOn hz)
      (timeKeys_madeAt hz htimes hmade) hnodup
  · rcases prefill_latestSuccess cs createdDatabase with ⟨hnone, hnil⟩ | ⟨r, c, hlatest, hlast, h⟩
    · rw [hnone, hnil]
      rfl
    · rw [hlatest, hlast, h]
      rfl

end Prefill

/-- Two texts, one second apart, to two servers. -/
def sendsInTurn : List (SendCall pinningPlatform) :=
  [sendTo (lit "10.0.0.1") (sdfFormat 48 (fun _ => 0) 1772377200999),
    sendTo (lit "10.0.0.2") (sdfFormat 48 (fun _ => 0) 1772377201000)]

/-- The fields are filled with the second one's. -/
theorem prefill_latest_iff_inTurn :
    ∃ answer, GetsLastSuccessful (runSends createdDatabase sendsInTurn) answer ∧
      prefill (runSends createdDatabase sendsInTurn) answer
        = some (some (lit "10.0.0.2"), 5000, false) := by
  have hall : succeeded createdDatabase sendsInTurn = sendsInTurn := by rfl
  have hmade : List.Forall₂ (MadeAt 48 (fun _ => 0)) (succeeded createdDatabase sendsInTurn)
      [1772377200, 1772377201] := by
    rw [hall]
    exact .cons ⟨⟨by decide, by decide⟩, 1772377200999, by decide, rfl⟩
      (.cons ⟨⟨by decide, by decide⟩, 1772377201000, by decide, rfl⟩ .nil)
  rcases prefill_latest_iff (Or.inl (by decide)) (fun _ => 0) sendsInTurn hmade with
    ⟨hiff, hprefill⟩
  rcases exists_topRow timeKey (successes (runSends createdDatabase sendsInTurn)) with
    ⟨answer, hanswer⟩
  refine ⟨answer, hanswer, ?_⟩
  rw [hiff.mpr (by decide) answer hanswer, hprefill, hall]
  rfl

end SendingSystem
