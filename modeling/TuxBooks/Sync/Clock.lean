import TuxBooks.Lib.Decimal
import TuxBooks.Sync.Run

set_option relaxedAutoImplicit false
set_option autoImplicit false

/-!
# The hybrid clock of a device

`sidecar/src/sync/clock.rs`: the clock is one text `wall:counter` of the table `sync_meta`,
advanced by a single SQL upsert that takes the text apart, and read back by a parser of its own.
The upsert computes in 64 bits and the parser reads the counter in 32, so a counter at the
32-bit limit is stored and never read again until the wall clock passes its wall.

## Main definitions

* `TuxBooks.SyncMeta` — the two rows of `sync_meta` that the clock uses.
* `TuxBooks.SyncMeta.nextHlc`, `TuxBooks.SyncMeta.observeHlc`, `TuxBooks.parseHlc`.
* `TuxBooks.tick`, `TuxBooks.observed` — the same steps on a pair of numbers.
* `TuxBooks.ClockCall` — a call of one of the two, as part of a run.
* `TuxBooks.Advances`, `TuxBooks.SyncMeta.Room` — what the next clock should satisfy, and when
  it does.

## Main results

* `TuxBooks.nextValue_encode`, `TuxBooks.observeValue_encode` — the texts follow the numbers.
* `TuxBooks.Covers.after` — the stored clock never falls below a clock handed out or observed.
* `TuxBooks.clock_advances_iff` — a run advances at every call exactly if every call has room.
-/

namespace TuxBooks

/-! ## SQL and Rust readers of integers -/

/-- The values of a signed 64-bit integer. -/
def IsI64 (n : ℤ) : Prop := -2 ^ 63 ≤ n ∧ n < 2 ^ 63

/-- Saturate at the ends of the 64-bit range. -/
def clampI64 (n : ℤ) : ℤ := max (-2 ^ 63) (min n (2 ^ 63 - 1))

/-- `CAST(text AS INTEGER)`: the longest numeral at the start, after blanks. -/
def castInteger (s : List Char) : ℤ := clampI64 (Decimal.leading (s.dropWhile Char.isWhitespace))

/-- `instr(s, c)`: the position of the first `c`, counted from one, zero when there is none. -/
def instr (s : List Char) (c : Char) : ℕ := if c ∈ s then s.idxOf c + 1 else 0

/-- `substr(value, 1, instr(value, ':') - 1)`. -/
def wallText (value : String) : List Char := value.toList.take (instr value.toList ':' - 1)

/-- `substr(value, instr(value, ':') + 1)`. -/
def counterText (value : String) : List Char := value.toList.drop (instr value.toList ':')

/-- `printf('%d:%d', wall, counter)`. -/
def hlcText (wall counter : ℤ) : String :=
  String.ofList (Decimal.text wall ++ ':' :: Decimal.text counter)

/-- `str::parse::<i64>`. -/
def parseI64 (s : String) : Option ℤ :=
  match Decimal.signed? s.toList with
  | some n => if -2 ^ 63 ≤ n ∧ n < 2 ^ 63 then some n else none
  | none => none

/-- `str::parse::<u32>`. -/
def parseU32 (s : String) : Option ℕ :=
  match Decimal.unsigned? s.toList with
  | some n => if n < 2 ^ 32 then some n else none
  | none => none

/-! ## The clock -/

/-- The rows `device_id` and `hlc` of `sync_meta`. -/
structure SyncMeta where
  deviceId : Option String := none
  hlc : Option String := none
  deriving DecidableEq

/-- The device id with the table after it is read; `fresh` is the random id of a new device. -/
def SyncMeta.ensureDeviceId (m : SyncMeta) (fresh : String) : String × SyncMeta :=
  match m.deviceId with
  | some id => if id ≠ "" then (id, m) else (fresh, { m with deviceId := some fresh })
  | none => (fresh, { m with deviceId := some fresh })

/-- The text that the upsert of `next_hlc` stores at a wall-clock reading. A sum beyond 64 bits
turns into a real number, which `printf` prints as the largest integer. -/
def nextValue (stored : Option String) (reading : ℤ) : String :=
  let excluded := hlcText reading 0
  match stored with
  | none => excluded
  | some value =>
    if castInteger (wallText excluded) > castInteger (wallText value) then excluded
    else hlcText (castInteger (wallText value)) (clampI64 (castInteger (counterText value) + 1))

/-- The text that the upsert of `observe_hlc` stores for a remote clock. -/
def observeValue (stored : Option String) (remote : Hlc) : String :=
  let excluded := hlcText remote.wall remote.counter
  match stored with
  | none => excluded
  | some value =>
    if castInteger (wallText excluded) > castInteger (wallText value) then excluded
    else if castInteger (wallText excluded) = castInteger (wallText value) ∧
        castInteger (counterText excluded) > castInteger (counterText value) then excluded
    else value

/-- Read a stored clock back. -/
def parseHlc (value device : String) : Except AppError Hlc :=
  match splitOnce ':' value with
  | none => .error (.invalidInput ("bad hlc value: " ++ value))
  | some (wall, counter) =>
    match parseI64 wall with
    | none => .error (.invalidInput ("bad hlc wall: " ++ wall))
    | some w =>
      match parseU32 counter with
      | none => .error (.invalidInput ("bad hlc counter: " ++ counter))
      | some c => .ok ⟨w, c, device⟩

namespace SyncMeta

/-- Take the next clock value. The stored text moves on also when it cannot be read back. -/
def nextHlc (m : SyncMeta) (reading : ℤ) (fresh : String) : Except AppError Hlc × SyncMeta :=
  let device := m.ensureDeviceId fresh
  let value := nextValue device.2.hlc reading
  (parseHlc value device.1, { device.2 with hlc := some value })

/-- Move the local clock forward when a remote writer is ahead. -/
def observeHlc (m : SyncMeta) (remote : Hlc) : SyncMeta :=
  { m with hlc := some (observeValue m.hlc remote) }

@[simp] lemma ensureDeviceId_hlc (m : SyncMeta) (fresh : String) :
    (m.ensureDeviceId fresh).2.hlc = m.hlc := by
  unfold ensureDeviceId
  cases m.deviceId with
  | none => rfl
  | some id => dsimp only; split <;> rfl

@[simp] lemma nextHlc_hlc (m : SyncMeta) (reading : ℤ) (fresh : String) :
    (m.nextHlc reading fresh).2.hlc = some (nextValue m.hlc reading) := by
  simp [nextHlc]

lemma nextHlc_result (m : SyncMeta) (reading : ℤ) (fresh : String) :
    (m.nextHlc reading fresh).1 =
      parseHlc (nextValue m.hlc reading) (m.ensureDeviceId fresh).1 := by
  simp [nextHlc]

@[simp] lemma observeHlc_hlc (m : SyncMeta) (remote : Hlc) :
    (m.observeHlc remote).hlc = some (observeValue m.hlc remote) := rfl

end SyncMeta

/-! ## Texts of clocks -/

lemma clampI64_of_isI64 {n : ℤ} (h : IsI64 n) : clampI64 n = n := by
  unfold clampI64
  rw [min_eq_left (by have := h.2; omega), max_eq_right h.1]

/-- A digit is not a blank. -/
lemma isWhitespace_of_isDigit {c : Char} (h : c.isDigit = true) : c.isWhitespace = false := by
  rw [Bool.eq_false_iff]
  intro hw
  simp only [Char.isWhitespace, Bool.or_eq_true, decide_eq_true_eq] at hw
  rcases hw with ((hw | hw) | hw) | hw <;> rw [hw] at h <;> exact absurd h (by decide)

/-- Casting the text of a 64-bit integer gives the integer. -/
lemma castInteger_text {n : ℤ} (h : IsI64 n) : castInteger (Decimal.text n) = n := by
  have hblank : (Decimal.text n).dropWhile Char.isWhitespace = Decimal.text n := by
    rw [List.dropWhile_eq_self_iff]
    intro hlen
    have hmem := List.getElem_mem (l := Decimal.text n) hlen
    rcases Decimal.isDigit_or_minus_of_mem_text hmem with hd | hm
    · rw [isWhitespace_of_isDigit hd]
      decide
    · rw [hm]
      decide
  unfold castInteger
  rw [hblank, Decimal.leading_text, clampI64_of_isI64 h]

section Text

variable (wall counter : ℤ)

lemma toList_hlcText :
    (hlcText wall counter).toList = Decimal.text wall ++ ':' :: Decimal.text counter := by
  simp [hlcText]

lemma colon_notMem_text (n : ℤ) : ':' ∉ Decimal.text n :=
  Decimal.notMem_text (by decide) (by decide)

lemma instr_hlcText :
    instr (hlcText wall counter).toList ':' = (Decimal.text wall).length + 1 := by
  rw [toList_hlcText, instr, if_pos (by simp), List.idxOf_append_of_notMem (colon_notMem_text wall),
    List.idxOf_cons_self]

@[simp] lemma wallText_hlcText : wallText (hlcText wall counter) = Decimal.text wall := by
  rw [wallText, instr_hlcText, toList_hlcText, Nat.add_sub_cancel, List.take_left']
  rfl

@[simp] lemma counterText_hlcText : counterText (hlcText wall counter) = Decimal.text counter := by
  rw [counterText, instr_hlcText, toList_hlcText]
  simp [List.drop_append]

lemma splitOnce_hlcText : splitOnce ':' (hlcText wall counter) =
    some (String.ofList (Decimal.text wall), String.ofList (Decimal.text counter)) := by
  have hkeep : ∀ c ∈ Decimal.text wall, (c != ':') = true := by
    intro c hc
    simp only [bne_iff_ne, ne_eq]
    intro h
    rw [h] at hc
    exact colon_notMem_text wall hc
  unfold splitOnce
  rw [toList_hlcText, List.dropWhile_append_of_pos hkeep, List.takeWhile_append_of_pos hkeep]
  simp

end Text

/-- A stored clock reads back as long as its counter fits in 32 bits. -/
lemma parseHlc_hlcText {wall : ℤ} {counter : ℕ} (hwall : IsI64 wall) (device : String) :
    parseHlc (hlcText wall counter) device =
      if counter < 2 ^ 32 then .ok ⟨wall, counter, device⟩
      else .error (.invalidInput
        ("bad hlc counter: " ++ String.ofList (Decimal.text counter))) := by
  unfold parseHlc
  rw [splitOnce_hlcText]
  dsimp only
  have hw : parseI64 (String.ofList (Decimal.text wall)) = some wall := by
    unfold parseI64
    rw [String.toList_ofList, Decimal.signed?_text]
    exact if_pos hwall
  have hc : parseU32 (String.ofList (Decimal.text counter)) =
      if counter < 2 ^ 32 then some counter else none := by
    unfold parseU32
    rw [String.toList_ofList, Decimal.unsigned?_text]
  rw [hw, hc]
  by_cases hfit : counter < 2 ^ 32
  · simp only [if_pos hfit]
  · simp only [if_neg hfit]

/-! ## The numbers behind the texts -/

/-- The text that stores a pair of wall and counter. -/
def encode (clock : ℤ × ℕ) : String := hlcText clock.1 clock.2

/-- The machine ranges of a stored clock: both numbers are 64-bit integers. -/
def Sized (clock : ℤ × ℕ) : Prop := IsI64 clock.1 ∧ IsI64 clock.2

/-- The step of `next_hlc` on numbers. -/
def tick (clock : Option (ℤ × ℕ)) (reading : ℤ) : ℤ × ℕ :=
  match clock with
  | none => (reading, 0)
  | some (wall, counter) =>
    if reading > wall then (reading, 0) else (wall, min (counter + 1) (2 ^ 63 - 1))

/-- The step of `observe_hlc` on numbers. -/
def observed (clock : Option (ℤ × ℕ)) (remote : Hlc) : ℤ × ℕ :=
  match clock with
  | none => (remote.wall, remote.counter)
  | some (wall, counter) =>
    if remote.wall > wall then (remote.wall, remote.counter)
    else if remote.wall = wall ∧ remote.counter > counter then (remote.wall, remote.counter)
    else (wall, counter)

/-- The mirror's clock is the clock on numbers. -/
lemma Mirror.observeHlc_clock (m : Mirror) (remote : Hlc) :
    (m.observeHlc remote).clock = some (observed m.clock remote) := by
  unfold Mirror.observeHlc observed
  cases m.clock with
  | none => rfl
  | some clock =>
    dsimp only
    split
    · rfl
    · split <;> rfl

lemma Sized.castInteger_wall {clock : ℤ × ℕ} (h : Sized clock) :
    castInteger (wallText (encode clock)) = clock.1 := by
  rw [encode, wallText_hlcText, castInteger_text h.1]

lemma Sized.castInteger_counter {clock : ℤ × ℕ} (h : Sized clock) :
    castInteger (counterText (encode clock)) = clock.2 := by
  rw [encode, counterText_hlcText, castInteger_text h.2]

lemma isI64_zero : IsI64 ((0 : ℕ) : ℤ) := by
  constructor <;> norm_num

lemma Sized.tick {clock : Option (ℤ × ℕ)} (h : ∀ c ∈ clock, Sized c) {reading : ℤ}
    (hr : IsI64 reading) : Sized (tick clock reading) := by
  unfold TuxBooks.tick
  cases clock with
  | none => exact ⟨hr, isI64_zero⟩
  | some c =>
    dsimp only
    split
    · exact ⟨hr, isI64_zero⟩
    · refine ⟨(h c rfl).1, ?_⟩
      constructor <;> push_cast <;> omega

lemma Sized.observed {clock : Option (ℤ × ℕ)} (h : ∀ c ∈ clock, Sized c) {remote : Hlc}
    (hr : Sized (remote.wall, remote.counter)) : Sized (observed clock remote) := by
  unfold TuxBooks.observed
  cases clock with
  | none => exact hr
  | some c =>
    dsimp only
    split
    · exact hr
    · split
      · exact hr
      · exact h c rfl

/-- The upsert of `next_hlc` follows the numbers. -/
theorem nextValue_encode {clock : Option (ℤ × ℕ)} (h : ∀ c ∈ clock, Sized c) {reading : ℤ}
    (hr : IsI64 reading) : nextValue (clock.map encode) reading = encode (tick clock reading) := by
  have hexcluded : castInteger (wallText (hlcText reading 0)) = reading := by
    rw [wallText_hlcText, castInteger_text hr]
  cases clock with
  | none => rfl
  | some c =>
    have hc := h c rfl
    have hsum : clampI64 ((c.2 : ℤ) + 1) = (min (c.2 + 1) (2 ^ 63 - 1) : ℕ) := by
      have := hc.2.2
      unfold clampI64
      push_cast
      omega
    simp only [nextValue, tick, Option.map_some, hexcluded, hc.castInteger_wall,
      hc.castInteger_counter, hsum]
    split <;> rfl

/-- The upsert of `observe_hlc` follows the numbers. -/
theorem observeValue_encode {clock : Option (ℤ × ℕ)} (h : ∀ c ∈ clock, Sized c) {remote : Hlc}
    (hr : Sized (remote.wall, remote.counter)) :
    observeValue (clock.map encode) remote = encode (observed clock remote) := by
  have hwall : castInteger (wallText (hlcText remote.wall remote.counter)) = remote.wall := by
    rw [wallText_hlcText, castInteger_text hr.1]
  have hcounter :
      castInteger (counterText (hlcText remote.wall remote.counter)) = remote.counter := by
    rw [counterText_hlcText, castInteger_text hr.2]
  cases clock with
  | none => rfl
  | some c =>
    have hc := h c rfl
    simp only [observeValue, observed, Option.map_some, hwall, hcounter, hc.castInteger_wall,
      hc.castInteger_counter]
    norm_cast
    split
    · rfl
    · split <;> rfl

/-- The order of wall and counter. -/
def stamp (clock : ℤ × ℕ) : ℤ ×ₗ ℕ := toLex clock

/-- The order of wall and counter on clocks. -/
def Hlc.stamp (h : Hlc) : ℤ ×ₗ ℕ := TuxBooks.stamp (h.wall, h.counter)

lemma stamp_lt {a b : ℤ × ℕ} : stamp a < stamp b ↔ a.1 < b.1 ∨ a.1 = b.1 ∧ a.2 < b.2 :=
  Prod.Lex.toLex_lt_toLex

lemma stamp_le {a b : ℤ × ℕ} : stamp a ≤ stamp b ↔ a.1 < b.1 ∨ a.1 = b.1 ∧ a.2 ≤ b.2 :=
  Prod.Lex.toLex_le_toLex

/-- The clock does not move back. -/
lemma stamp_le_tick {c : ℤ × ℕ} (h : Sized c) (reading : ℤ) :
    stamp c ≤ stamp (tick (some c) reading) := by
  have hlimit := h.2.2
  rw [stamp_le]
  unfold tick
  dsimp only
  split
  · next hlt => exact Or.inl hlt
  · refine Or.inr ⟨rfl, ?_⟩
    dsimp only
    omega

/-- A clock whose next counter is below the limit moves forward. -/
lemma stamp_lt_tick {c : ℤ × ℕ} {reading : ℤ} (h : (tick (some c) reading).2 < 2 ^ 32) :
    stamp c < stamp (tick (some c) reading) := by
  rw [stamp_lt]
  unfold tick at h ⊢
  dsimp only at h ⊢
  split at h
  · next hlt =>
    rw [if_pos hlt]
    exact Or.inl hlt
  · next hge =>
    rw [if_neg hge]
    refine Or.inr ⟨rfl, ?_⟩
    dsimp only at h ⊢
    omega

lemma stamp_le_observed (c : ℤ × ℕ) (remote : Hlc) :
    stamp c ≤ stamp (observed (some c) remote) := by
  rw [stamp_le]
  unfold observed
  dsimp only
  split
  · next hlt => exact Or.inl hlt
  · split
    · next heq => exact Or.inr ⟨heq.1.symm, heq.2.le⟩
    · exact Or.inr ⟨rfl, le_rfl⟩

/-- The clock is not behind what it observed. -/
lemma le_stamp_observed (clock : Option (ℤ × ℕ)) (remote : Hlc) :
    remote.stamp ≤ stamp (observed clock remote) := by
  rw [Hlc.stamp, stamp_le]
  unfold observed
  cases clock with
  | none => exact Or.inr ⟨rfl, le_rfl⟩
  | some c =>
    dsimp only
    split
    · exact Or.inr ⟨rfl, le_rfl⟩
    · split
      · exact Or.inr ⟨rfl, le_rfl⟩
      · dsimp only
        omega

/-! ## Runs -/

/-- A call of the clock. The reading of the wall clock and the random id of a new device are
inputs. -/
inductive ClockCall where
  | next (reading : ℤ) (fresh : String)
  | observe (op : Op)

namespace ClockCall

/-- What the program can be called with: a 64-bit reading, or the clock of an operation that
passed the validator, with the numbers in the ranges of their types. -/
def Possible : ClockCall → Prop
  | next reading _ => IsI64 reading
  | observe op => validateOp op = .ok () ∧ IsI64 op.hlc.wall ∧ op.hlc.counter < 2 ^ 32

/-- The table after a call. -/
def run (m : SyncMeta) : ClockCall → SyncMeta
  | next reading fresh => (m.nextHlc reading fresh).2
  | observe op => m.observeHlc op.hlc

/-- The clock that a call returns or is given; a call that fails has none. -/
def clock (m : SyncMeta) : ClockCall → Option Hlc
  | next reading fresh => (m.nextHlc reading fresh).1.toOption
  | observe op => some op.hlc

end ClockCall

/-- The table of a new device after a sequence of calls. -/
def after (calls : List ClockCall) : SyncMeta := calls.foldl ClockCall.run {}

/-- The clocks returned or observed from the table `m` on. -/
def clocksFrom : SyncMeta → List ClockCall → List Hlc
  | _, [] => []
  | m, call :: calls => (call.clock m).toList ++ clocksFrom (call.run m) calls

/-- The call of `next_hlc` after `before` succeeds with a clock above every clock returned or
observed until then. -/
def Advances (before : List ClockCall) (reading : ℤ) (fresh : String) : Prop :=
  ∃ hlc, ((after before).nextHlc reading fresh).1 = .ok hlc ∧
    ∀ h ∈ clocksFrom {} before, h.stamp < hlc.stamp

/-- The reading is past the stored wall, or the stored counter is below its limit. -/
def SyncMeta.Room (m : SyncMeta) (reading : ℤ) : Prop :=
  ∀ value ∈ m.hlc,
    castInteger (wallText value) < reading ∨ castInteger (counterText value) < 4294967295

/-- The stored clock is at least every clock of `seen`. -/
def Covers (m : SyncMeta) (seen : List Hlc) : Prop :=
  ∃ clock : Option (ℤ × ℕ), m.hlc = clock.map encode ∧ (∀ c ∈ clock, Sized c) ∧
    ∀ h ∈ seen, ∃ c ∈ clock, h.stamp ≤ stamp c

/-- Every clock seen before is at most what the next call stores. -/
lemma seen_le_tick {seen : List Hlc} {clock : Option (ℤ × ℕ)}
    (hsized : ∀ c ∈ clock, Sized c) (hseen : ∀ h ∈ seen, ∃ c ∈ clock, h.stamp ≤ stamp c)
    (reading : ℤ) : ∀ h ∈ seen, h.stamp ≤ stamp (tick clock reading) := by
  intro h hh
  obtain ⟨c, hc, hle⟩ := hseen h hh
  obtain rfl : clock = some c := hc
  exact hle.trans (stamp_le_tick (hsized c rfl) reading)

/-- The clock that a successful call returns is the one it stores. -/
lemma stamp_of_parseHlc {clock : ℤ × ℕ} (h : Sized clock) {device : String} {hlc : Hlc}
    (hok : parseHlc (encode clock) device = .ok hlc) : hlc.stamp = stamp clock := by
  rw [encode, parseHlc_hlcText h.1] at hok
  split at hok
  · cases hok
    rfl
  · cases hok

/-- **One call** keeps the stored clock at least every clock seen. -/
lemma Covers.run {m : SyncMeta} {seen : List Hlc} (h : Covers m seen) {call : ClockCall}
    (hcall : call.Possible) : Covers (call.run m) (seen ++ (call.clock m).toList) := by
  obtain ⟨clock, hm, hsized, hseen⟩ := h
  cases call with
  | next reading fresh =>
    have hr : IsI64 reading := hcall
    have hnext := nextValue_encode hsized hr
    have htick := Sized.tick hsized hr
    refine ⟨some (tick clock reading), ?_, ?_, ?_⟩
    · rw [ClockCall.run, SyncMeta.nextHlc_hlc, hm, hnext, Option.map_some]
    · intro c hc
      obtain rfl := Option.some.inj hc
      exact htick
    · intro h hh
      refine ⟨_, rfl, ?_⟩
      rcases List.mem_append.mp hh with hh | hh
      · exact seen_le_tick hsized hseen reading h hh
      · rw [ClockCall.clock, SyncMeta.nextHlc_result, hm, hnext] at hh
        cases hparse : parseHlc (encode (tick clock reading)) (m.ensureDeviceId fresh).1 with
        | error e => simp [hparse, Except.toOption] at hh
        | ok hlc =>
          simp only [hparse, Except.toOption, Option.toList_some, List.mem_singleton] at hh
          subst hh
          exact (stamp_of_parseHlc htick hparse).le
  | observe op =>
    have hr : Sized (op.hlc.wall, op.hlc.counter) := by
      refine ⟨hcall.2.1, ?_⟩
      have := hcall.2.2
      constructor
      · dsimp only
        omega
      · dsimp only
        omega
    refine ⟨some (observed clock op.hlc), ?_, ?_, ?_⟩
    · rw [ClockCall.run, SyncMeta.observeHlc_hlc, hm, observeValue_encode hsized hr,
        Option.map_some]
    · intro c hc
      obtain rfl := Option.some.inj hc
      exact Sized.observed hsized hr
    · intro h hh
      refine ⟨_, rfl, ?_⟩
      rcases List.mem_append.mp hh with hh | hh
      · obtain ⟨c, hc, hle⟩ := hseen h hh
        obtain rfl : clock = some c := hc
        exact hle.trans (stamp_le_observed c op.hlc)
      · simp only [ClockCall.clock, Option.toList_some, List.mem_singleton] at hh
        subst hh
        exact le_stamp_observed clock op.hlc

/-- **A run** keeps the stored clock at least every clock seen. -/
theorem Covers.after {m : SyncMeta} {seen : List Hlc} (h : Covers m seen) {calls : List ClockCall}
    (hcalls : ∀ call ∈ calls, call.Possible) :
    Covers (calls.foldl ClockCall.run m) (seen ++ clocksFrom m calls) := by
  induction calls generalizing m seen with
  | nil => simpa [clocksFrom] using h
  | cons call calls ih =>
    have hstep := h.run (hcalls call List.mem_cons_self)
    have hrest := ih hstep fun c hc => hcalls c (List.mem_cons_of_mem call hc)
    simpa [clocksFrom, List.append_assoc] using hrest

lemma covers_empty : Covers {} [] :=
  ⟨none, rfl, by simp, by simp⟩

/-- With room the next clock's counter fits in 32 bits, and only then. -/
lemma tick_counter_lt_iff {clock : Option (ℤ × ℕ)} (hsized : ∀ c ∈ clock, Sized c) {m : SyncMeta}
    (hm : m.hlc = clock.map encode) (reading : ℤ) :
    (tick clock reading).2 < 2 ^ 32 ↔ m.Room reading := by
  unfold SyncMeta.Room
  rw [hm]
  cases clock with
  | none => simp [tick]
  | some c =>
    have hc := hsized c rfl
    have hvalue : (∀ value ∈ (some c).map encode,
        castInteger (wallText value) < reading ∨ castInteger (counterText value) < 4294967295) ↔
        c.1 < reading ∨ (c.2 : ℤ) < 4294967295 := by
      simp [hc.castInteger_wall, hc.castInteger_counter]
    rw [hvalue]
    unfold tick
    dsimp only
    split
    · next hlt => exact iff_of_true (by norm_num) (Or.inl hlt)
    · next hge =>
      dsimp only
      omega

/-- **One call after a run** advances exactly if it has room. -/
theorem advances_iff_room {before : List ClockCall} (hbefore : ∀ call ∈ before, call.Possible)
    {reading : ℤ} (hr : IsI64 reading) (fresh : String) :
    Advances before reading fresh ↔ (after before).Room reading := by
  obtain ⟨clock, hm, hsized, hseen⟩ := covers_empty.after hbefore
  rw [List.nil_append] at hseen
  have hm' : (TuxBooks.after before).hlc = clock.map encode := hm
  have hresult : ((TuxBooks.after before).nextHlc reading fresh).1 =
      parseHlc (encode (tick clock reading))
        ((TuxBooks.after before).ensureDeviceId fresh).1 := by
    rw [SyncMeta.nextHlc_result, hm', nextValue_encode hsized hr]
  rw [← tick_counter_lt_iff hsized hm' reading]
  unfold Advances
  rw [hresult]
  have hparse := @parseHlc_hlcText (tick clock reading).1 (tick clock reading).2
    (Sized.tick hsized hr).1 ((TuxBooks.after before).ensureDeviceId fresh).1
  constructor
  · rintro ⟨hlc, hok, -⟩
    by_contra hlimit
    rw [encode, hparse, if_neg hlimit] at hok
    cases hok
  · intro hlimit
    refine ⟨_, by rw [encode, hparse, if_pos hlimit], ?_⟩
    intro h hh
    obtain ⟨c, hc, hle⟩ := hseen h hh
    obtain rfl : clock = some c := hc
    exact lt_of_le_of_lt hle (stamp_lt_tick hlimit)

/-- Every call of `next_hlc` in the run advances. -/
def Advancing (calls : List ClockCall) : Prop :=
  ∀ before reading fresh rest,
    calls = before ++ .next reading fresh :: rest → Advances before reading fresh

/-- Every call of `next_hlc` in the run has room. -/
def Roomy (calls : List ClockCall) : Prop :=
  ∀ before reading fresh rest,
    calls = before ++ .next reading fresh :: rest → (after before).Room reading

/-- **Runs of the clock.** In a run of calls from a new device every call of `next_hlc` succeeds
with a clock above all clocks returned or observed before it, exactly if at every such call the
wall clock is past the stored wall or the stored counter is below `u32::MAX`. -/
theorem clock_advances_iff {calls : List ClockCall} (hcalls : ∀ call ∈ calls, call.Possible) :
    Advancing calls ↔ Roomy calls := by
  have hpoint : ∀ before reading fresh rest, calls = before ++ .next reading fresh :: rest →
      (Advances before reading fresh ↔ (after before).Room reading) := by
    intro before reading fresh rest hsplit
    subst hsplit
    have hbefore : ∀ call ∈ before, call.Possible := fun call hcall =>
      hcalls call (List.mem_append_left _ hcall)
    have hreading : (ClockCall.next reading fresh).Possible :=
      hcalls _ (List.mem_append_right _ List.mem_cons_self)
    exact advances_iff_room hbefore hreading fresh
  constructor
  · intro h before reading fresh rest hsplit
    exact (hpoint before reading fresh rest hsplit).mp (h before reading fresh rest hsplit)
  · intro h before reading fresh rest hsplit
    exact (hpoint before reading fresh rest hsplit).mpr (h before reading fresh rest hsplit)

/-- An accepted operation with the given wall and counter. -/
def clockOp (wall : ℤ) (counter : ℕ) : Op :=
  let op := sampleOp EntityKind.annotation wall "00000000000000000000000000000001" false false ∅
  { op with hlc := { op.hlc with counter := counter } }

lemma clockOp_possible_seven : (ClockCall.observe (clockOp 9000 7)).Possible := by
  refine ⟨by decide, ?_, by decide⟩
  exact ⟨by decide, by decide⟩

lemma clockOp_possible_limit : (ClockCall.observe (clockOp 9000 4294967295)).Possible := by
  refine ⟨by decide, ?_, by decide⟩
  exact ⟨by decide, by decide⟩

lemma next_possible (fresh : String) : (ClockCall.next 5000 fresh).Possible :=
  ⟨by decide, by decide⟩

/-- A remote clock is ahead of a wall clock that stands still. -/
theorem clock_advances_sample :
    let calls := [.next 5000 "dd", .observe (clockOp 9000 7), .next 5000 "dd"]
    (∀ call ∈ calls, ClockCall.Possible call) ∧ (Advancing calls ↔ Roomy calls) := by
  have hcalls : ∀ call ∈ [.next 5000 "dd", .observe (clockOp 9000 7), .next 5000 "dd"],
      ClockCall.Possible call := by
    intro call hcall
    simp only [List.mem_cons, List.not_mem_nil, or_false] at hcall
    rcases hcall with rfl | rfl | rfl
    · exact next_possible "dd"
    · exact clockOp_possible_seven
    · exact next_possible "dd"
  exact ⟨hcalls, clock_advances_iff hcalls⟩

/-- One observed clock at the counter limit stops every local edit until the wall clock passes
its wall. -/
theorem clock_wedges :
    ¬ ∀ calls : List ClockCall, (∀ call ∈ calls, call.Possible) → Advancing calls := by
  intro h
  have hobserve : ∀ call ∈ [.observe (clockOp 9000 4294967295)], ClockCall.Possible call := by
    intro call hcall
    obtain rfl := List.mem_singleton.mp hcall
    exact clockOp_possible_limit
  have hcalls : ∀ call ∈ [.observe (clockOp 9000 4294967295), .next 5000 "dd"],
      ClockCall.Possible call := by
    intro call hcall
    rcases List.mem_cons.mp hcall with rfl | hcall
    · exact clockOp_possible_limit
    · obtain rfl := List.mem_singleton.mp hcall
      exact next_possible "dd"
  have hadvances := h _ hcalls [.observe (clockOp 9000 4294967295)] 5000 "dd" [] rfl
  have hroom := (advances_iff_room hobserve (next_possible "dd") "dd").mp hadvances
  have hsized : Sized (9000, 4294967295) := by
    refine ⟨⟨by decide, by decide⟩, ⟨by decide, by decide⟩⟩
  rcases hroom _ rfl with hwall | hcounter
  · exact absurd hwall (by
      rw [show observeValue ({} : SyncMeta).hlc (clockOp 9000 4294967295).hlc =
        encode (9000, 4294967295) from rfl, hsized.castInteger_wall]
      decide)
  · exact absurd hcounter (by
      rw [show observeValue ({} : SyncMeta).hlc (clockOp 9000 4294967295).hlc =
        encode (9000, 4294967295) from rfl, hsized.castInteger_counter]
      decide)

end TuxBooks
