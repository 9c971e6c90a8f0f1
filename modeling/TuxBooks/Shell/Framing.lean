import Mathlib.Data.List.DropRight
import TuxBooks.Lib.Lines
import TuxBooks.Lib.Occurrences

set_option relaxedAutoImplicit false
set_option autoImplicit false

/-!
# Framing of the sidecar's output

The newline framing of the JSON-RPC channel: `LineBuffer` with its cap, and the part of `Sidecar`
that feeds it, from the start of a process through its chunks to its exit.

## Main definitions

* `TuxBooks.LineBuffer`, `TuxBooks.LineBuffer.push` — the framing.
* `TuxBooks.Sidecar`, `TuxBooks.Sidecar.step` — the channel over the life of several processes.
* `TuxBooks.Process` — what one process writes, and how it arrives.
* `TuxBooks.Sidecar.Framed` — every process is heard as it wrote, within the bound on the buffer.

## Main results

* `TuxBooks.LineBuffer.Holds.push` — one chunk, against the lines of the whole stream.
* `TuxBooks.Sidecar.framed_iff` — the framing is right exactly when no unfinished line meets a line
  within the cap.
-/

namespace TuxBooks

/-- A string of the shell, as its UTF-16 code units. -/
abbrev JsString := List UInt16

def newline : UInt16 := 0x0a

/-- Cap on one buffered response line from the sidecar. -/
def maxResponseLineBytes : ℕ := 2 * 1024 * 1024 * 1024

/-! ## The line buffer -/

/-- Newline framing with a per-line cap. -/
structure LineBuffer where
  maxLineLength : ℕ
  buffer : JsString := []
  overflowing : Bool := false
  deriving DecidableEq

namespace LineBuffer

/-- What follows a newline is shorter than the buffer it is in. -/
lemma length_drop_lt {buffer : JsString} {at_ : ℕ} (h : buffer.idxOf? newline = some at_) :
    (buffer.drop (at_ + 1)).length < buffer.length := by
  obtain ⟨hlt, -⟩ := List.idxOf?_eq_some_iff.mp h
  rw [List.length_drop]
  omega

/-- The loop of `push`: the buffer, whether it is overflowing, and the lines it finished. -/
def drain (maxLineLength : ℕ) (overflowing : Bool) (buffer : JsString) :
    JsString × Bool × List JsString :=
  match h : buffer.idxOf? newline with
  | none =>
    if buffer.length > maxLineLength then ([], true, []) else (buffer, overflowing, [])
  | some at_ =>
    have := length_drop_lt h
    let after := drain maxLineLength false (buffer.drop (at_ + 1))
    if overflowing then after
    else
      let line := buffer.take at_
      if line.length > maxLineLength then after
      else (after.1, after.2.1, line :: after.2.2)
termination_by buffer.length

/-- Append a decoded chunk; returns the complete lines it finished. -/
def push (b : LineBuffer) (chunk : JsString) : LineBuffer × List JsString :=
  let drained := drain b.maxLineLength b.overflowing (b.buffer ++ chunk)
  ({ b with buffer := drained.1, overflowing := drained.2.1 }, drained.2.2)

/-! ### What a push does -/

lemma drain_free {maxLineLength : ℕ} {overflowing : Bool} {buffer : JsString}
    (h : newline ∉ buffer) :
    drain maxLineLength overflowing buffer =
      if buffer.length > maxLineLength then ([], true, []) else (buffer, overflowing, []) := by
  have hidx : buffer.idxOf? newline = none := List.idxOf?_eq_none_iff.mpr h
  rw [drain]
  split
  · rfl
  · next at_ hat => simp [hidx] at hat

lemma drain_line {maxLineLength : ℕ} {overflowing : Bool} {line more : JsString}
    (h : newline ∉ line) :
    drain maxLineLength overflowing (line ++ newline :: more) =
      let after := drain maxLineLength false more
      if overflowing ∨ line.length > maxLineLength then after
      else (after.1, after.2.1, line :: after.2.2) := by
  have hidx : (line ++ newline :: more).idxOf? newline = some line.length := by
    rw [List.idxOf?_eq_some_iff]
    refine ⟨by simp, by simp, fun j hj => ?_⟩
    rw [List.getElem_append_left hj]
    have hmem : line.get ⟨j, hj⟩ ∈ line := List.getElem_mem hj
    simpa using fun heq : line.get ⟨j, hj⟩ = newline => h (heq ▸ hmem)
  rw [drain]
  split
  · next hat => simp [hidx] at hat
  · next at_ hat =>
    obtain rfl : line.length = at_ := by simpa [hidx] using hat
    cases overflowing <;> simp

/-- What a buffer stands for: `pending` is what arrived since the last newline. -/
structure Holds (b : LineBuffer) (pending : JsString) : Prop where
  unfinished : newline ∉ pending
  free : newline ∉ b.buffer
  bound : b.buffer.length ≤ b.maxLineLength
  kept : if b.overflowing then b.maxLineLength < pending.length else b.buffer = pending

lemma holds_empty (maxLineLength : ℕ) : Holds ⟨maxLineLength, [], false⟩ [] :=
  ⟨by simp, by simp, by simp, by simp⟩

/-- A line that the cap lets through. -/
def short (maxLineLength : ℕ) (line : JsString) : Bool := line.length ≤ maxLineLength

/-- The loop from a line's start on. -/
lemma drain_spec (maxLineLength : ℕ) (text : JsString) :
    (drain maxLineLength false text).2.2 =
        (Lines.complete newline text).filter (short maxLineLength) ∧
      Holds ⟨maxLineLength, (drain maxLineLength false text).1,
        (drain maxLineLength false text).2.1⟩ (Lines.rest newline text) := by
  induction text using Lines.lines_induction newline with
  | free text h =>
    rw [drain_free h, Lines.complete_of_free h, Lines.rest_of_free h]
    split_ifs with hlen
    · exact ⟨rfl, h, by simp, by simp, by simpa using hlen⟩
    · exact ⟨rfl, h, h, by simpa using hlen, by simp⟩
  | line line more h ih =>
    rw [drain_line h, Lines.complete_cons h, Lines.rest_cons h]
    obtain ⟨hlines, hholds⟩ := ih
    by_cases hlen : line.length > maxLineLength
    · have hlong : short maxLineLength line = false := by simpa [short] using hlen
      simp only [hlen, or_true, if_true, List.filter_cons, hlong, Bool.false_eq_true, if_false]
      exact ⟨hlines, hholds⟩
    · have hshort : short maxLineLength line = true := by simpa [short] using hlen
      simp only [hlen, Bool.false_eq_true, or_self, if_false, List.filter_cons, hshort, if_true]
      exact ⟨by rw [hlines], hholds⟩

lemma push_maxLineLength (b : LineBuffer) (chunk : JsString) :
    (b.push chunk).1.maxLineLength = b.maxLineLength := rfl

/-- **One chunk** delivers the short lines it completes, and leaves the rest pending. -/
theorem Holds.push {b : LineBuffer} {pending : JsString} (h : b.Holds pending)
    (chunk : JsString) :
    (b.push chunk).2 =
        (Lines.complete newline (pending ++ chunk)).filter (short b.maxLineLength) ∧
      (b.push chunk).1.Holds (Lines.rest newline (pending ++ chunk)) := by
  obtain ⟨maxLineLength, buffer, overflowing⟩ := b
  cases overflowing with
  | false =>
    obtain rfl : buffer = pending := by simpa using h.kept
    exact drain_spec maxLineLength (buffer ++ chunk)
  | true =>
    have hlong : maxLineLength < pending.length := by simpa using h.kept
    have hfree : newline ∉ buffer := h.free
    -- the line that overflowed ends at the first newline of the chunk, if there is one
    obtain hchunk | ⟨line, more, hline, rfl⟩ := Lines.first_or_free newline chunk
    · have hall : newline ∉ pending ++ chunk := by simp [h.unfinished, hchunk]
      have hbuf : newline ∉ buffer ++ chunk := by simp [hfree, hchunk]
      have hdrain : drain maxLineLength true (buffer ++ chunk) = _ := drain_free hbuf
      rw [Lines.complete_of_free hall, Lines.rest_of_free hall]
      simp only [LineBuffer.push, hdrain]
      split_ifs with hlen
      · exact ⟨rfl, hall, by simp, by simp, by simp; omega⟩
      · exact ⟨rfl, hall, hbuf, by simpa using hlen, by simp; omega⟩
    · have hall : newline ∉ pending ++ line := by simp [h.unfinished, hline]
      have hbuf : newline ∉ buffer ++ line := by simp [hfree, hline]
      have hdrop : short maxLineLength (pending ++ line) = false := by simp [short]; omega
      have hdrain : drain maxLineLength true (buffer ++ (line ++ newline :: more)) =
          drain maxLineLength false more := by
        rw [← List.append_assoc, drain_line hbuf]
        simp
      rw [← List.append_assoc, Lines.complete_cons hall, Lines.rest_cons hall,
        List.filter_cons_of_neg (by simp [hdrop])]
      simp only [LineBuffer.push, hdrain]
      exact drain_spec maxLineLength more

end LineBuffer

/-! ## The sidecar's channel -/

/-- White space and line ends, as `trim` drops them. -/
def isWhiteSpace (unit : UInt16) : Bool :=
  (0x09 ≤ unit && unit ≤ 0x0d) || unit == 0x20 || unit == 0xa0 || unit == 0x1680 ||
    (0x2000 ≤ unit && unit ≤ 0x200a) || unit == 0x2028 || unit == 0x2029 || unit == 0x202f ||
    unit == 0x205f || unit == 0x3000 || unit == 0xfeff

/-- `String.prototype.trim`. -/
def jsTrim (line : JsString) : JsString := (line.dropWhile isWhiteSpace).rdropWhile isWhiteSpace

/-- The channel to the service: whether a process runs, the line buffer, and the lines handed to
`onLine`. -/
structure Sidecar where
  child : Bool := false
  lines : LineBuffer := { maxLineLength := maxResponseLineBytes }
  heard : List JsString := []

namespace Sidecar

/-- What the channel reacts to. -/
inductive Event where
  | start
  | data (chunk : JsString)
  | exit

def startOnce (s : Sidecar) : Sidecar := { s with child := true }

def onData (s : Sidecar) (chunk : JsString) : Sidecar :=
  let pushed := s.lines.push chunk
  { s with
    lines := pushed.1
    heard := s.heard ++ (pushed.2.map jsTrim).filter (· ≠ []) }

/-- The pending calls fail and a restart is scheduled; the line buffer stays as it is. -/
def onExit (s : Sidecar) : Sidecar := { s with child := false }

def step (s : Sidecar) : Event → Sidecar
  | .start => s.startOnce
  | .data chunk => s.onData chunk
  | .exit => s.onExit

def run (s : Sidecar) (events : List Event) : Sidecar := events.foldl step s

end Sidecar

/-- A line the service writes: one JSON object. -/
structure IsResponse (line : JsString) : Prop where
  oneLine : newline ∉ line
  opens : line.head? = some 0x7b
  closes : line.getLast? = some 0x7d

/-- A process of the service: the lines it completes, what it wrote of the line it died in, and the
chunks that its output arrives in. -/
structure Process where
  written : List JsString
  tail : JsString
  chunks : List JsString
  responses : ∀ line ∈ written, IsResponse line
  begun : ∃ more, IsResponse (tail ++ more)
  arrives : chunks.flatten = Lines.unlines newline written ++ tail

/-- The process starts, its chunks arrive, and it exits. -/
def Process.events (p : Process) : List Sidecar.Event :=
  .start :: p.chunks.map .data ++ [.exit]

namespace Sidecar

/-- The events of processes that run one after the other. -/
def events (ps : List Process) : List Event := ps.flatMap Process.events

/-- **Every process is heard as it wrote**: `onLine` gets its complete lines within the cap, in
order and unchanged, and no chunk makes the buffer longer than the cap and that chunk. -/
def Framed (ps : List Process) : Prop :=
  (run {} (events ps)).heard =
      ps.flatMap (fun p => p.written.filter (LineBuffer.short maxResponseLineBytes)) ∧
    ∀ before chunk after, events ps = before ++ .data chunk :: after →
      ((run {} before).lines.buffer ++ chunk).length ≤ maxResponseLineBytes + chunk.length

/-- The first complete line that one of the processes writes. -/
def nextLine (ps : List Process) : Option JsString := (ps.flatMap Process.written).head?

/-- No unfinished line is followed, in a later process, by a line within the cap. -/
def CleanRestarts : List Process → Prop
  | [] => True
  | p :: ps =>
    (p.tail = [] ∨ ∀ line ∈ nextLine ps, maxResponseLineBytes < line.length) ∧ CleanRestarts ps

/-! ### The stream of all processes -/

/-- What the processes write, joined. -/
def output (ps : List Process) : JsString :=
  ps.flatMap fun p => Lines.unlines newline p.written ++ p.tail

/-- The lines within the cap in a stream that begins with `pending`. -/
def streamLines (pending : JsString) (ps : List Process) : List JsString :=
  (Lines.complete newline (pending ++ output ps)).filter (LineBuffer.short maxResponseLineBytes)

/-- The lines within the cap that the processes write. -/
def writtenLines (ps : List Process) : List JsString :=
  ps.flatMap fun p => p.written.filter (LineBuffer.short maxResponseLineBytes)

lemma tail_free (p : Process) : newline ∉ p.tail := by
  obtain ⟨more, hmore⟩ := p.begun
  exact fun h => hmore.oneLine (List.mem_append_left _ h)

/-- A process that completes no line only adds to the pending one. -/
lemma streamLines_silent {pending : JsString} {p : Process} (ps : List Process)
    (h : p.written = []) : streamLines pending (p :: ps) = streamLines (pending ++ p.tail) ps := by
  simp [streamLines, output, h]

/-- The first line of a process is joined to the pending one, and its other lines are its own. -/
lemma streamLines_line {pending line : JsString} {lines : List JsString} {p : Process}
    (ps : List Process) (hpending : newline ∉ pending) (h : p.written = line :: lines) :
    streamLines pending (p :: ps) =
      [pending ++ line].filter (LineBuffer.short maxResponseLineBytes) ++
        (lines.filter (LineBuffer.short maxResponseLineBytes) ++ streamLines p.tail ps) := by
  have hfree : ∀ other ∈ p.written, newline ∉ other := fun other hother =>
    (p.responses other hother).oneLine
  rw [h] at hfree
  have hline : newline ∉ pending ++ line := by
    simp [hpending, hfree line List.mem_cons_self]
  have hsplit : pending ++ output (p :: ps) = pending ++ line ++ newline ::
      (Lines.unlines newline lines ++ (p.tail ++ output ps)) := by
    simp [output, h]
  rw [streamLines, hsplit, Lines.complete_cons hline, Lines.complete_unlines_append
    fun other hother => hfree other (List.mem_cons_of_mem line hother), ← List.singleton_append,
    List.filter_append, List.filter_append]
  rfl

lemma writtenLines_line {line : JsString} {lines : List JsString} {p : Process}
    (ps : List Process) (h : p.written = line :: lines) :
    writtenLines (p :: ps) =
      [line].filter (LineBuffer.short maxResponseLineBytes) ++
        (lines.filter (LineBuffer.short maxResponseLineBytes) ++ writtenLines ps) := by
  rw [writtenLines, List.flatMap_cons, h, ← List.singleton_append, List.filter_append,
    List.append_assoc]
  rfl

/-- A line that something was joined to is not shorter. -/
lemma filter_joined_le (pending line : JsString) (maxLineLength : ℕ) :
    ([pending ++ line].filter (LineBuffer.short maxLineLength)).length ≤
      ([line].filter (LineBuffer.short maxLineLength)).length := by
  simp only [List.filter_cons, LineBuffer.short, List.length_append, decide_eq_true_eq]
  split_ifs <;> simp
  omega

/-- Joining lines delivers no more of them. -/
lemma streamLines_length_le (ps : List Process) {pending : JsString} (h : newline ∉ pending) :
    (streamLines pending ps).length ≤ (writtenLines ps).length := by
  induction ps generalizing pending with
  | nil => simp [streamLines, output, Lines.complete_of_free h]
  | cons p ps ih =>
    cases hwritten : p.written with
    | nil =>
      rw [streamLines_silent ps hwritten]
      have hih := @ih (pending ++ p.tail) (by simp [h, tail_free p])
      simpa [writtenLines, hwritten] using hih
    | cons line lines =>
      rw [streamLines_line ps h hwritten, writtenLines_line ps hwritten]
      have hjoined := filter_joined_le pending line maxResponseLineBytes
      have hih := ih (tail_free p)
      simp only [List.length_append] at *
      omega

/-- **The stream has the written lines exactly when** the pending line meets no line within the
cap, and no later unfinished line does. -/
theorem streamLines_eq_iff (ps : List Process) {pending : JsString} (h : newline ∉ pending) :
    streamLines pending ps = writtenLines ps ↔
      (pending = [] ∨ ∀ line ∈ nextLine ps, maxResponseLineBytes < line.length) ∧
        CleanRestarts ps := by
  induction ps generalizing pending with
  | nil => simp [streamLines, writtenLines, output,
      nextLine, CleanRestarts, Lines.complete_of_free h]
  | cons p ps ih =>
    cases hwritten : p.written with
    | nil =>
      have hnext : nextLine (p :: ps) = nextLine ps := by simp [nextLine, hwritten]
      have hlines : writtenLines (p :: ps) = writtenLines ps := by simp [writtenLines, hwritten]
      have hjoined : newline ∉ pending ++ p.tail := by simp [h, tail_free p]
      rw [streamLines_silent ps hwritten, hlines, ih hjoined, hnext, CleanRestarts,
        List.append_eq_nil_iff]
      tauto
    | cons line lines =>
      have hnext : nextLine (p :: ps) = some line := by simp [nextLine, hwritten]
      have hlater := ih (tail_free p)
      have hcancel (ahead : List JsString) :
          ahead ++ (lines.filter (LineBuffer.short maxResponseLineBytes) ++
              streamLines p.tail ps) =
            ahead ++ (lines.filter (LineBuffer.short maxResponseLineBytes) ++ writtenLines ps) ↔
          CleanRestarts (p :: ps) := by
        rw [List.append_right_inj, List.append_right_inj, hlater, CleanRestarts]
      rw [streamLines_line ps h hwritten, writtenLines_line ps hwritten, hnext]
      by_cases hpending : pending = []
      · subst hpending
        rw [List.nil_append, hcancel]
        simp
      · by_cases hlong : maxResponseLineBytes < line.length
        · have hdropped : [pending ++ line].filter (LineBuffer.short maxResponseLineBytes) =
              [line].filter (LineBuffer.short maxResponseLineBytes) := by
            simp [List.filter_cons, LineBuffer.short, hlong]
            omega
          rw [hdropped, hcancel]
          simp [hlong]
        · have hkept : [line].filter (LineBuffer.short maxResponseLineBytes) = [line] := by
            simpa [List.filter_cons, LineBuffer.short] using hlong
          refine iff_of_false (fun heq => ?_) (by simp [hpending, hlong])
          rw [hkept] at heq
          by_cases hjoined : (pending ++ line).length ≤ maxResponseLineBytes
          · -- the joined line is heard in the place of the line it spoils
            have hheard : [pending ++ line].filter (LineBuffer.short maxResponseLineBytes) =
                [pending ++ line] := by
              simpa [List.filter_cons, LineBuffer.short] using hjoined
            rw [hheard, List.singleton_append, List.singleton_append] at heq
            have hself : pending ++ line = line := List.head_eq_of_cons_eq heq
            exact hpending (List.append_left_eq_self.mp hself)
          · -- the joined line is dropped, and one line too few is heard
            have hheard : [pending ++ line].filter (LineBuffer.short maxResponseLineBytes) =
              [] := by
              simpa [List.filter_cons, LineBuffer.short] using hjoined
            have hlen := streamLines_length_le ps (tail_free p)
            rw [hheard] at heq
            have hcount := congrArg List.length heq
            simp only [List.length_append, List.length_cons, List.length_nil] at hcount
            omega

/-! ### What is heard of the stream -/

/-- The chunks among some events. -/
def received (events : List Event) : JsString :=
  events.flatMap fun
    | .data chunk => chunk
    | _ => []

lemma received_append (es es' : List Event) :
    received (es ++ es') = received es ++ received es' :=
  List.flatMap_append

lemma received_events (ps : List Process) : received (events ps) = output ps := by
  induction ps with
  | nil => rfl
  | cons p ps ih =>
    have hdata : received (p.chunks.map .data) = p.chunks.flatten := by
      simp [received, List.flatMap_map, List.flatMap_id']
    have hp : received p.events = Lines.unlines newline p.written ++ p.tail := by
      rw [← p.arrives, ← hdata]
      simp [Process.events, received]
    rw [events, List.flatMap_cons, received_append, hp, ← events, ih]
    rfl

/-- What `onLine` gets of some lines. -/
def hear (lines : List JsString) : List JsString := (lines.map jsTrim).filter (· ≠ [])

/-- **A run** hears the short lines of the whole stream, whatever its chunks are, and the line
buffer stands for the unfinished line. -/
theorem run_spec (es : List Event) {s : Sidecar} {pending : JsString}
    (h : s.lines.Holds pending) :
    (run s es).heard = s.heard ++ hear ((Lines.complete newline (pending ++ received es)).filter
        (LineBuffer.short s.lines.maxLineLength)) ∧
      (run s es).lines.Holds (Lines.rest newline (pending ++ received es)) ∧
      (run s es).lines.maxLineLength = s.lines.maxLineLength := by
  induction es generalizing s pending with
  | nil =>
    rw [received, List.flatMap_nil, List.append_nil, Lines.complete_of_free h.unfinished,
      Lines.rest_of_free h.unfinished]
    exact ⟨by simp [run, hear], h, rfl⟩
  | cons e es ih =>
    cases e with
    | start => exact @ih s.startOnce pending h
    | exit => exact @ih s.onExit pending h
    | data chunk =>
      obtain ⟨hlines, hholds⟩ := h.push chunk
      obtain ⟨hheard, hrest, hmax⟩ := @ih (s.onData chunk) _ hholds
      have hreceived : received (.data chunk :: es) = chunk ++ received es := rfl
      rw [hreceived, ← List.append_assoc, Lines.complete_append (pending ++ chunk),
        Lines.rest_append (pending ++ chunk), List.filter_append]
      refine ⟨?_, hrest, hmax⟩
      have hfirst : (s.onData chunk).heard = s.heard ++ hear (s.lines.push chunk).2 := rfl
      rw [run, List.foldl_cons, ← run]
      simp only [step]
      rw [hheard, hfirst, hlines, List.append_assoc]
      simp [hear, onData, LineBuffer.push_maxLineLength]

/-! ### Responses -/

lemma trim_response {line : JsString} (h : IsResponse line) : jsTrim line = line := by
  have hfirst : line.dropWhile isWhiteSpace = line := by
    obtain ⟨rest, rfl⟩ := List.head?_eq_some_iff.mp h.opens
    exact List.dropWhile_cons_of_neg (by decide)
  have hlast : line.rdropWhile isWhiteSpace = line := by
    refine List.rdropWhile_eq_self_iff.mpr fun hne => ?_
    have hclose := h.closes
    rw [List.getLast?_eq_some_getLast hne, Option.some.injEq] at hclose
    rw [hclose]
    decide
  rw [jsTrim, hfirst, hlast]

/-- What begins a line, joined to a line, is one object's text as far as its ends show. -/
lemma joined_response {pending line : JsString} (hpending : ∃ more, IsResponse (pending ++ more))
    (h : IsResponse line) : IsResponse (pending ++ line) := by
  obtain ⟨more, hmore⟩ := hpending
  have hfree : newline ∉ pending := fun hmem => hmore.oneLine (List.mem_append_left _ hmem)
  cases pending with
  | nil => exact h
  | cons unit pending =>
    refine ⟨fun hmem => (List.mem_append.mp hmem).elim hfree h.oneLine, hmore.opens, ?_⟩
    rw [List.getLast?_append, h.closes]
    rfl

/-- Every line of the stream is heard as it stands. -/
lemma response_of_complete (ps : List Process) {pending line : JsString}
    (hpending : ∃ more, IsResponse (pending ++ more))
    (h : line ∈ Lines.complete newline (pending ++ output ps)) : IsResponse line := by
  have hfree : newline ∉ pending := by
    obtain ⟨more, hmore⟩ := hpending
    exact fun hmem => hmore.oneLine (List.mem_append_left _ hmem)
  induction ps generalizing pending with
  | nil => simp [output, Lines.complete_of_free hfree] at h
  | cons p ps ih =>
    have houtput : output (p :: ps) = Lines.unlines newline p.written ++ p.tail ++ output ps := rfl
    cases hwritten : p.written with
    | nil =>
      rw [houtput, hwritten, Lines.unlines_nil, List.nil_append, ← List.append_assoc] at h
      obtain ⟨more, hmore⟩ := p.begun
      refine ih ⟨more, ?_⟩ h (by simp [hfree, tail_free p])
      rw [List.append_assoc]
      exact joined_response hpending hmore
    | cons first lines =>
      have hresponses := p.responses
      rw [hwritten] at hresponses
      have hfirst := joined_response hpending (hresponses first List.mem_cons_self)
      have hlines : ∀ other ∈ lines, newline ∉ other := fun other hother =>
        (hresponses other (List.mem_cons_of_mem first hother)).oneLine
      have hsplit : pending ++ output (p :: ps) = pending ++ first ++ newline ::
          (Lines.unlines newline lines ++ (p.tail ++ output ps)) := by
        simp [houtput, hwritten]
      rw [hsplit, Lines.complete_cons hfirst.oneLine, Lines.complete_unlines_append hlines,
        List.mem_cons, List.mem_append] at h
      obtain rfl | hline | hlater := h
      · exact hfirst
      · exact hresponses line (List.mem_cons_of_mem first hline)
      · exact ih p.begun hlater (tail_free p)

lemma hear_of_responses {lines : List JsString} (h : ∀ line ∈ lines, IsResponse line) :
    hear lines = lines := by
  have htrim : lines.map jsTrim = lines := by
    refine (List.map_congr_left fun line hline => trim_response (h line hline)).trans ?_
    exact List.map_id' lines
  rw [hear, htrim, List.filter_eq_self]
  intro line hline
  have hopens := (h line hline).opens
  cases line <;> simp_all

/-- The processes hear what the stream holds. -/
lemma heard_events (ps : List Process) : (run {} (events ps)).heard = streamLines [] ps := by
  have hempty : (({} : Sidecar).lines).Holds [] := LineBuffer.holds_empty maxResponseLineBytes
  obtain ⟨hheard, -, -⟩ := run_spec (events ps) hempty
  rw [hheard, received_events, List.nil_append]
  refine (List.nil_append _).trans (hear_of_responses fun line hline => ?_)
  refine @response_of_complete ps [] _ ⟨[0x7b, 0x7d], ?_⟩ (List.mem_of_mem_filter hline)
  exact ⟨by decide, rfl, rfl⟩

/-- Before any chunk the buffer is within the cap. -/
lemma buffer_bound (before : List Event) :
    (run {} before).lines.buffer.length ≤ maxResponseLineBytes := by
  have hempty : (({} : Sidecar).lines).Holds [] := LineBuffer.holds_empty maxResponseLineBytes
  obtain ⟨-, hholds, hmax⟩ := run_spec before hempty
  exact hholds.bound.trans_eq hmax

/-- **The framing survives exactly the restarts** at which no unfinished line meets a line within
the cap. -/
theorem framed_iff (ps : List Process) : Framed ps ↔ CleanRestarts ps := by
  have hlines : (run {} (events ps)).heard = writtenLines ps ↔ CleanRestarts ps := by
    rw [heard_events, streamLines_eq_iff ps List.not_mem_nil]
    simp
  refine Iff.trans ⟨fun h => h.1, fun h => ⟨h, fun before chunk after _ => ?_⟩⟩ hlines
  rw [List.length_append]
  exact Nat.add_le_add_right (buffer_bound before) chunk.length

/-- A process that writes the start of `{"id":1}` and dies. -/
def diesMidLine : Process where
  written := []
  tail := [0x7b, 0x22, 0x69]
  chunks := [[0x7b, 0x22, 0x69]]
  responses := by simp
  begun := ⟨[0x7d], by decide, rfl, rfl⟩
  arrives := rfl

/-- The next process, which answers the health check with `{}`. -/
def answersPing : Process where
  written := [[0x7b, 0x7d]]
  tail := []
  chunks := [[0x7b], [0x7d, 0x0a]]
  responses := by
    intro line hline
    obtain rfl := List.mem_singleton.mp hline
    exact ⟨by decide, rfl, rfl⟩
  begun := ⟨[0x7b, 0x7d], by decide, rfl, rfl⟩
  arrives := rfl

/-- The answer to the health check is heard with the dead process's bytes in front of it. -/
theorem not_framed_after_death :
    (run {} (events [diesMidLine, answersPing])).heard = [[0x7b, 0x22, 0x69, 0x7b, 0x7d]] ∧
      ¬ Framed [diesMidLine, answersPing] := by
  have hheard : (run {} (events [diesMidLine, answersPing])).heard =
      [[0x7b, 0x22, 0x69, 0x7b, 0x7d]] := by decide +kernel
  refine ⟨hheard, fun h => ?_⟩
  have hwritten := h.1
  rw [hheard] at hwritten
  revert hwritten
  decide +kernel

end Sidecar

end TuxBooks
