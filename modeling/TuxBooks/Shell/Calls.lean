import Mathlib.Data.List.Perm.Basic
import TuxBooks.Lib.Table

set_option relaxedAutoImplicit false
set_option autoImplicit false

/-!
# Calls to the sidecar

The JSON-RPC channel between the shell and the service, above the framing of its lines: `Sidecar`
of `electron/main/sidecar.ts` with its pending calls, its timers and its restart ladder, against
processes of the service that answer a request at most once, in any order, and may die at any
moment. A line may be lost on the way and may be late: it can be heard after its process is gone.

## Main definitions

* `TuxBooks.Calls.State` — the shell, the processes, and what is between them.
* `TuxBooks.Calls.Event`, `TuxBooks.Calls.step` — one turn of the event loop, of a process, or of
  the pipe.
* `TuxBooks.Calls.Sound` — what the lines and the settled calls go back to.
* `TuxBooks.Calls.Accounted` — every call is settled, or pending with a timer and a process.

## Main results

* `TuxBooks.Calls.resolved_by_own_answer` — a call is resolved by the answer to its own request.
* `TuxBooks.Calls.accounted_run` — no call is lost, and none can wait for ever.
-/

namespace TuxBooks

namespace Calls

/-! ## Lines -/

/-- A request line. -/
structure Request (π : Type) where
  id : ℕ
  method : String
  params : π
  deriving DecidableEq

/-- What a response carries: `result` or `error`. -/
inductive Body (ρ : Type) where
  | result (value : ρ)
  | error (code : ℤ) (message : String)
  deriving DecidableEq

/-- A line of the service. -/
inductive Line (ρ : Type) where
  | response (id : ℕ) (body : Body ρ)
  | event (name : String) (payload : ρ)
  deriving DecidableEq

/-- How a call ends. -/
inductive Outcome (ρ : Type) where
  | resolved (value : ρ)
  | failed (code : ℤ) (message : String)
  | timedOut (method : String)
  | exited
  | stopped
  | notWritten (message : String)
  | tooLarge (method : String)
  | notRunning
  deriving DecidableEq

def Body.outcome {ρ : Type} : Body ρ → Outcome ρ
  | .result value => .resolved value
  | .error code message => .failed code message

def Outcome.isResolved {ρ : Type} : Outcome ρ → Bool
  | .resolved _ => true
  | _ => false

/-- An answer that a process has given. -/
structure Served (π ρ : Type) where
  process : ℕ
  request : Request π
  body : Body ρ
  deriving DecidableEq

/-! ## State -/

/-- Cap on the JSON text of one request line. -/
def maxSidecarRequestBytes : ℕ := 8 * 1024 * 1024

def restartBaseMs : ℕ := 500

def restartMaxMs : ℕ := 8000

/-- What the channel is given: how long a request line is, the empty parameters of `ping`, and how
long the service may be silent. -/
structure Config (π : Type) where
  textLength : Request π → ℕ
  noParams : π
  idleTimeoutMs : ℤ := 60000

/-- A pending call. The timer is the time for which the idle check is armed. -/
structure Pending where
  method : String
  timer : Option ℤ
  deriving DecidableEq

/-- A process of the service, until its exit has been reported to the shell. -/
inductive Process where
  | running
  | dead
  | reaped
  deriving DecidableEq, Repr

/-- The shell, the processes of the service, and what is between them. -/
structure State (π ρ : Type) where
  child : Option ℕ := none
  pending : Table ℕ Pending := ∅
  nextId : ℕ := 1
  stopped : Bool := false
  restartDelay : ℕ := restartBaseMs
  /-- `startPromise` is set. -/
  startPromise : Bool := false
  lastActivityAt : ℤ := 0
  /-- The restart timers that are armed, by their delay. -/
  restarts : List ℕ := []
  /-- The pings that a start waits for, and whether `start()` waits for that start. -/
  starts : Table ℕ Bool := ∅
  /-- Every process that was spawned. -/
  processes : List Process := []
  /-- The requests that were written to a process and not answered. -/
  requests : List (ℕ × Request π) := []
  /-- The lines that a process wrote and that were not heard. -/
  flight : List (Line ρ) := []
  /-- Every request that was written. -/
  issued : Table ℕ (Request π) := ∅
  /-- Every answer. -/
  served : List (Served π ρ) := []
  /-- The promises that are settled. -/
  settled : Table ℕ (Outcome ρ) := ∅

variable {π ρ : Type}

/-! ## The shell -/

section Shell

variable (cfg : Config π)

/-- Resolve or reject the promise of a call. Only the first time counts. When it is the ping of a
start, the start goes on. -/
def settle (s : State π ρ) (id : ℕ) (outcome : Outcome ρ) : State π ρ :=
  if (s.settled.lookup id).isSome then s
  else
    let ping := s.starts.lookup id
    { s with
      settled := s.settled.insert id outcome
      restartDelay := if ping.isSome && outcome.isResolved then restartBaseMs else s.restartDelay
      startPromise := s.startPromise && !(ping == some true && !outcome.isResolved) }

/-- Reject every pending call and forget them all. -/
def rejectAll (s : State π ρ) (outcome : Outcome ρ) : State π ρ :=
  { s.pending.keys.foldl (fun s id => settle s id outcome) s with pending := ∅ }

/-- The promise of the next call, once it has a process to go to. -/
def callTo (s : State π ρ) (child : ℕ) (method : String) (params : π) : State π ρ :=
  let request : Request π := ⟨s.nextId, method, params⟩
  let s := { s with nextId := s.nextId + 1 }
  if cfg.textLength request > maxSidecarRequestBytes then
    settle s request.id (.tooLarge method)
  else
    { s with
      pending := s.pending.insert request.id ⟨method, some cfg.idleTimeoutMs⟩
      issued := s.issued.insert request.id request
      requests := s.requests ++ [(child, request)] }

/-- One JSON-RPC call. -/
def call (s : State π ρ) (method : String) (params : π) :
    State π ρ × Except (Outcome ρ) ℕ :=
  match s.child with
  | none => (s, .error .notRunning)
  | some child => (callTo cfg s child method params, .ok s.nextId)

/-- Spawn the service and ping it. -/
def startOnce (s : State π ρ) (found awaited : Bool) : State π ρ :=
  if found then
    let child := s.processes.length
    callTo cfg { s with
      stopped := false
      processes := s.processes ++ [.running]
      child := some child
      starts := s.starts.insert s.nextId awaited } child "ping" cfg.noParams
  else s

/-- A start whose binary is missing allows a later one. -/
def start (s : State π ρ) (found : Bool) : State π ρ :=
  if s.startPromise then s
  else startOnce cfg { s with startPromise := found } found true

/-- A restart timer fires. -/
def restart (s : State π ρ) (i : ℕ) (found : Bool) : State π ρ :=
  if i < s.restarts.length then
    startOnce cfg { s with restarts := s.restarts.eraseIdx i } found false
  else s

def onLine (s : State π ρ) : Line ρ → State π ρ
  | .response id body =>
    if (s.pending.lookup id).isSome then
      settle { s with pending := s.pending.erase id } id body.outcome
    else s
  | .event _ _ => s

/-- The child is gone, its calls fail, and a restart is scheduled. -/
def onExit (s : State π ρ) : State π ρ :=
  let s := rejectAll { s with child := none } .exited
  if s.stopped then s
  else
    { s with
      restarts := s.restarts ++ [s.restartDelay]
      restartDelay := min (s.restartDelay * 2) restartMaxMs }

/-- The idle check of a call. -/
def check (s : State π ρ) (id : ℕ) (now : ℤ) : State π ρ :=
  match s.pending.lookup id with
  | some ⟨method, some _⟩ =>
    let remaining := cfg.idleTimeoutMs - (now - s.lastActivityAt)
    if remaining > 0 then
      { s with pending := s.pending.insert id ⟨method, some remaining⟩ }
    else settle { s with pending := s.pending.erase id } id (.timedOut method)
  | _ => s

/-- The write of a request fails. -/
def writeFailed (s : State π ρ) (id : ℕ) (message : String) : State π ρ :=
  if (s.issued.lookup id).isSome then
    settle { s with pending := s.pending.erase id } id (.notWritten message)
  else s

/-- Terminate the service for good. -/
def stop (s : State π ρ) : State π ρ :=
  match s.child with
  | none => { s with stopped := true }
  | some _ => rejectAll { s with stopped := true, child := none } .stopped

end Shell

/-! ## The service -/

/-- A process answers one of its requests. -/
def answer (s : State π ρ) (i : ℕ) (body : Body ρ) : State π ρ :=
  match s.requests[i]? with
  | some (p, request) =>
    if s.processes[p]? = some .running then
      { s with
        requests := s.requests.eraseIdx i
        served := s.served ++ [⟨p, request, body⟩]
        flight := s.flight ++ [.response request.id body] }
    else s
  | none => s

/-- A process reports an event. -/
def emit (s : State π ρ) (p : ℕ) (name : String) (payload : ρ) : State π ρ :=
  if s.processes[p]? = some .running then
    { s with flight := s.flight ++ [.event name payload] }
  else s

/-- A process dies. -/
def die (s : State π ρ) (p : ℕ) : State π ρ :=
  if s.processes[p]? = some .running then { s with processes := s.processes.set p .dead } else s

/-! ## Steps -/

inductive Event (π ρ : Type) where
  | start (found : Bool)
  | restart (i : ℕ) (found : Bool)
  | call (method : String) (params : π)
  /-- A chunk arrives. -/
  | data (now : ℤ)
  /-- A chunk ends a line. -/
  | hear (i : ℕ)
  | lose (i : ℕ)
  | check (id : ℕ) (now : ℤ)
  | writeFailed (id : ℕ) (message : String)
  | stop
  | answer (i : ℕ) (body : Body ρ)
  | emit (p : ℕ) (name : String) (payload : ρ)
  | die (p : ℕ)
  /-- The exit of a dead process is reported. -/
  | exit (p : ℕ)

/-- A line is heard or lost. -/
def takeLine (s : State π ρ) (i : ℕ) : State π ρ := { s with flight := s.flight.eraseIdx i }

def hear (s : State π ρ) (i : ℕ) : State π ρ :=
  match s.flight[i]? with
  | some line => onLine (takeLine s i) line
  | none => s

def exit (s : State π ρ) (p : ℕ) : State π ρ :=
  if s.processes[p]? = some .dead then onExit { s with processes := s.processes.set p .reaped }
  else s

def step (cfg : Config π) (s : State π ρ) : Event π ρ → State π ρ
  | .start found => start cfg s found
  | .restart i found => restart cfg s i found
  | .call method params => (call cfg s method params).1
  | .data now => { s with lastActivityAt := now }
  | .hear i => hear s i
  | .lose i => takeLine s i
  | .check id now => check cfg s id now
  | .writeFailed id message => writeFailed s id message
  | .stop => stop s
  | .answer i body => answer s i body
  | .emit p name payload => emit s p name payload
  | .die p => die s p
  | .exit p => exit s p

def run (cfg : Config π) (s : State π ρ) (events : List (Event π ρ)) : State π ρ :=
  events.foldl (step cfg) s

/-! ## What one step changes -/

section Frame

variable (s : State π ρ) (id : ℕ) (outcome : Outcome ρ)

/-- Settling a promise changes the settled promises, the delay and the start. -/
lemma settle_eq : ∃ delay promise, settle s id outcome =
    { s with
      settled := (settle s id outcome).settled
      restartDelay := delay
      startPromise := promise } := by
  unfold settle
  split
  · exact ⟨s.restartDelay, s.startPromise, rfl⟩
  · exact ⟨_, _, rfl⟩

/-- The first outcome counts. -/
lemma lookup_settle (j : ℕ) :
    (settle s id outcome).settled.lookup j =
      (s.settled.lookup j).or (if j = id then some outcome else none) := by
  unfold settle
  split
  · next hsome =>
    by_cases hj : j = id
    · subst hj
      obtain ⟨o, ho⟩ := Option.isSome_iff_exists.mp hsome
      simp [ho]
    · simp [hj]
  · next hnone =>
    rw [Table.lookup_insert']
    by_cases hj : j = id
    · subst hj
      simp [Option.not_isSome_iff_eq_none.mp hnone]
    · simp [hj]

lemma lookup_foldl_settle (ids : List ℕ) (j : ℕ) :
    (ids.foldl (fun s id => settle s id outcome) s).settled.lookup j =
      (s.settled.lookup j).or (if j ∈ ids then some outcome else none) := by
  induction ids generalizing s with
  | nil => simp
  | cons i ids ih =>
    rw [List.foldl_cons, ih, lookup_settle, Option.or_assoc]
    by_cases hj : j = i
    · simp [hj]
    · simp [hj]

lemma rejectAll_eq : ∃ delay promise, rejectAll s outcome =
    { s with
      pending := ∅, settled := (rejectAll s outcome).settled
      restartDelay := delay, startPromise := promise } := by
  have hframe : ∀ ids : List ℕ, ∃ delay promise settled,
      ids.foldl (fun s id => settle s id outcome) s =
        { s with settled := settled, restartDelay := delay, startPromise := promise } := by
    intro ids
    induction ids generalizing s with
    | nil => exact ⟨_, _, _, rfl⟩
    | cons i ids ih =>
      obtain ⟨delay, promise, heq⟩ := settle_eq s i outcome
      obtain ⟨delay', promise', settled', heq'⟩ := ih (settle s i outcome)
      refine ⟨delay', promise', settled', ?_⟩
      rw [List.foldl_cons, heq', heq]
  obtain ⟨delay, promise, settled, heq⟩ := hframe s.pending.keys
  refine ⟨delay, promise, ?_⟩
  unfold rejectAll
  rw [heq]

lemma lookup_rejectAll (j : ℕ) :
    (rejectAll s outcome).settled.lookup j =
      (s.settled.lookup j).or (if (s.pending.lookup j).isSome then some outcome else none) := by
  have hkeys : j ∈ s.pending.keys ↔ (s.pending.lookup j).isSome := by
    rw [← AList.mem_keys, AList.lookup_isSome]
  change (s.pending.keys.foldl (fun s id => settle s id outcome) s).settled.lookup j = _
  rw [lookup_foldl_settle]
  simp only [hkeys]

end Frame


/-! ## Answers -/

/-- An outcome that the service decided. -/
def Outcome.isAnswer : Outcome ρ → Bool
  | .resolved _ | .failed _ _ => true
  | _ => false

/-- The ids of the requests that a process holds, and of those that were answered. -/
def asked (s : State π ρ) : List ℕ :=
  s.requests.map (·.2.id) ++ s.served.map (·.request.id)

/-- What the lines and the settled calls go back to: every request was issued once, every response
under way is an answer, and so is every outcome that the service decided. -/
structure Sound (s : State π ρ) : Prop where
  issued : ∀ id request, s.issued.lookup id = some request → request.id = id ∧ id < s.nextId
  requests : ∀ e ∈ s.requests, s.issued.lookup e.2.id = some e.2
  served : ∀ e ∈ s.served, s.issued.lookup e.request.id = some e.request
  once : (asked s).Nodup
  flight : ∀ id body, .response id body ∈ s.flight →
    ∃ e ∈ s.served, e.request.id = id ∧ e.body = body
  settled : ∀ id outcome, s.settled.lookup id = some outcome → outcome.isAnswer →
    ∃ e ∈ s.served, e.request.id = id ∧ e.body.outcome = outcome

namespace Sound

variable {cfg : Config π} {s s' : State π ρ}

lemma init (now : ℤ) : Sound ({ lastActivityAt := now } : State π ρ) where
  issued _ _ h := by simp at h
  requests _ h := by simp at h
  served _ h := by simp at h
  once := List.nodup_nil
  flight _ _ h := by simp at h
  settled _ _ h := by simp at h

/-- The requests and the answers stay, no line is new, and no call is answered. -/
lemma of_frame (h : Sound s) (hissued : s'.issued = s.issued) (hnext : s.nextId ≤ s'.nextId)
    (hrequests : s'.requests = s.requests) (hserved : s'.served = s.served)
    (hflight : s'.flight ⊆ s.flight)
    (hsettled : ∀ id outcome, s'.settled.lookup id = some outcome → outcome.isAnswer →
      s.settled.lookup id = some outcome) : Sound s' where
  issued id request hrequest := by
    rw [hissued] at hrequest
    exact ⟨(h.issued id request hrequest).1, (h.issued id request hrequest).2.trans_le hnext⟩
  requests := by
    rw [hrequests, hissued]
    exact h.requests
  served := by
    rw [hserved, hissued]
    exact h.served
  once := by
    rw [asked, hrequests, hserved]
    exact h.once
  flight id body hline := by
    rw [hserved]
    exact h.flight id body (hflight hline)
  settled id outcome hlookup hanswer := by
    rw [hserved]
    exact h.settled id outcome (hsettled id outcome hlookup hanswer) hanswer

/-- Nothing that the lines and the calls go back to changes. -/
lemma congr (h : Sound s) (hissued : s'.issued = s.issued) (hnext : s'.nextId = s.nextId)
    (hrequests : s'.requests = s.requests) (hserved : s'.served = s.served)
    (hflight : s'.flight = s.flight) (hsettled : s'.settled = s.settled) : Sound s' :=
  h.of_frame hissued hnext.ge hrequests hserved (hflight ▸ List.Subset.refl _)
    fun _ _ hj _ => hsettled ▸ hj

lemma settle (h : Sound s) {id : ℕ} {outcome : Outcome ρ}
    (hanswer : outcome.isAnswer → ∃ e ∈ s.served, e.request.id = id ∧ e.body.outcome = outcome) :
    Sound (settle s id outcome) := by
  have hlookup := lookup_settle s id outcome
  obtain ⟨delay, promise, heq⟩ := settle_eq s id outcome
  rw [heq]
  refine ⟨h.issued, h.requests, h.served, h.once, h.flight, fun j o hj ho => ?_⟩
  rw [hlookup, Option.or_eq_some_iff] at hj
  rcases hj with hj | ⟨-, hj⟩
  · exact h.settled j o hj ho
  · split_ifs at hj with heq
    obtain rfl := Option.some.inj hj
    subst heq
    exact hanswer ho

lemma rejectAll (h : Sound s) {outcome : Outcome ρ} (hnot : outcome.isAnswer = false) :
    Sound (rejectAll s outcome) := by
  have hlookup := lookup_rejectAll s outcome
  obtain ⟨delay, promise, heq⟩ := rejectAll_eq s outcome
  rw [heq]
  refine h.of_frame rfl le_rfl rfl rfl (List.Subset.refl _) fun j o hj ho => ?_
  rw [hlookup, Option.or_eq_some_iff] at hj
  rcases hj with hj | ⟨-, hj⟩
  · exact hj
  · split_ifs at hj
    rw [← Option.some.inj hj, hnot] at ho
    cases ho

/-- A new request has a new id. -/
lemma callTo (h : Sound s) (cfg : Config π) (child : ℕ) (method : String) (params : π) :
    Sound (callTo cfg s child method params) := by
  have hfresh : ∀ request, s.issued.lookup s.nextId ≠ some request := fun request hrequest =>
    lt_irrefl _ (h.issued _ request hrequest).2
  unfold Calls.callTo
  dsimp only
  split
  · refine Sound.settle ?_ (by simp [Outcome.isAnswer])
    exact h.of_frame rfl (Nat.le_succ _) rfl rfl (List.Subset.refl _) fun _ _ hj _ => hj
  · refine ⟨fun id request hrequest => ?_, fun e he => ?_, fun e he => ?_, ?_, h.flight,
      h.settled⟩
    · rw [Table.lookup_insert'] at hrequest
      split_ifs at hrequest with hid
      · obtain rfl := Option.some.inj hrequest
        exact ⟨hid.symm, hid ▸ Nat.lt_succ_self _⟩
      · exact ⟨(h.issued id request hrequest).1, (h.issued id request hrequest).2.trans
          (Nat.lt_succ_self _)⟩
    · rw [Table.lookup_insert']
      rcases List.mem_append.mp he with he | he
      · have hissued := h.requests e he
        rw [if_neg fun hid => hfresh e.2 (by rwa [hid] at hissued)]
        exact hissued
      · rw [List.mem_singleton.mp he, if_pos rfl]
    · have hissued := h.served e he
      rw [Table.lookup_insert', if_neg fun hid => hfresh e.request (by rwa [hid] at hissued)]
      exact hissued
    · have hnew : s.nextId ∉ asked s := by
        intro hmem
        rcases List.mem_append.mp hmem with hmem | hmem
        · obtain ⟨e, he, hid⟩ := List.mem_map.mp hmem
          have hissued := h.requests e he
          rw [hid] at hissued
          exact hfresh e.2 hissued
        · obtain ⟨e, he, hid⟩ := List.mem_map.mp hmem
          have hissued := h.served e he
          rw [hid] at hissued
          exact hfresh e.request hissued
      have hperm : (s.requests.map (·.2.id) ++ [s.nextId] ++ s.served.map (·.request.id)).Perm
          (s.nextId :: asked s) := by
        rw [List.append_assoc]
        exact List.perm_middle
      rw [asked, List.map_append]
      exact hperm.nodup_iff.mpr (List.nodup_cons.mpr ⟨hnew, h.once⟩)

lemma startOnce (h : Sound s) (cfg : Config π) (found awaited : Bool) :
    Sound (startOnce cfg s found awaited) := by
  unfold Calls.startOnce
  split
  · refine Sound.callTo ?_ cfg _ _ _
    exact h.congr rfl rfl rfl rfl rfl rfl
  · exact h

/-- **A process answers a request that nobody has answered.** -/
lemma answer (h : Sound s) (i : ℕ) (body : Body ρ) : Sound (answer s i body) := by
  unfold Calls.answer
  split
  · next p request hi =>
    split
    · have hmem : (p, request) ∈ s.requests := List.mem_of_getElem? hi
      refine ⟨h.issued, fun e he => h.requests e (List.mem_of_mem_eraseIdx he), fun e he => ?_, ?_,
        fun id b hline => ?_, fun id o hid ho => ?_⟩
      · rcases List.mem_append.mp he with he | he
        · exact h.served e he
        · rw [List.mem_singleton.mp he]
          exact h.requests _ hmem
      · obtain ⟨hlt, hget⟩ := List.getElem?_eq_some_iff.mp hi
        have hperm : (request.id :: (s.requests.eraseIdx i).map (·.2.id)).Perm
            (s.requests.map (·.2.id)) := by
          have hcons := (List.getElem_cons_eraseIdx_perm hlt).map (·.2.id)
          rwa [List.map_cons, hget] at hcons
        have hall : (asked s).Perm ((s.requests.eraseIdx i).map (·.2.id) ++
            (s.served ++ [(⟨p, request, body⟩ : Served π ρ)]).map (·.request.id)) := by
          rw [List.map_append, ← List.append_assoc]
          refine (hperm.symm.append_right _).trans ?_
          rw [List.cons_append]
          exact (List.perm_append_singleton _ _).symm
        exact hall.nodup_iff.mp h.once
      · rcases List.mem_append.mp hline with hline | hline
        · obtain ⟨e, he, hfound⟩ := h.flight id b hline
          exact ⟨e, List.mem_append_left _ he, hfound⟩
        · obtain ⟨rfl, rfl⟩ := Line.response.inj (List.mem_singleton.mp hline)
          exact ⟨_, List.mem_append_right _ (List.mem_singleton_self _), rfl, rfl⟩
      · obtain ⟨e, he, hfound⟩ := h.settled id o hid ho
        exact ⟨e, List.mem_append_left _ he, hfound⟩
    · exact h
  · exact h

lemma takeLine (h : Sound s) (i : ℕ) : Sound (takeLine s i) :=
  h.of_frame rfl le_rfl rfl rfl (fun _ hl => List.mem_of_mem_eraseIdx hl) fun _ _ hj _ => hj

/-- **A line that is heard settles its call with an answer.** -/
lemma hear (h : Sound s) (i : ℕ) : Sound (hear s i) := by
  unfold Calls.hear
  split
  · next line hline =>
    have hmem := List.mem_of_getElem? hline
    cases line with
    | event name payload => exact h.takeLine i
    | response id body =>
      unfold onLine
      dsimp only
      split
      · obtain ⟨e, he, hid, hbody⟩ := h.flight id body hmem
        refine Sound.settle ?_ fun _ => ⟨e, he, hid, by rw [hbody]⟩
        exact (h.takeLine i).of_frame rfl le_rfl rfl rfl (List.Subset.refl _) fun _ _ hj _ => hj
      · exact h.takeLine i
  · exact h

lemma onExit (h : Sound s) : Sound (onExit s) := by
  have hreject : Sound (Calls.rejectAll { s with child := none } .exited) := by
    refine Sound.rejectAll ?_ rfl
    exact h.congr rfl rfl rfl rfl rfl rfl
  unfold Calls.onExit
  dsimp only
  split
  · exact hreject
  · exact hreject.of_frame rfl le_rfl rfl rfl (List.Subset.refl _) fun _ _ hj _ => hj

/-- A call that the shell gives up is not answered. -/
lemma giveUp (h : Sound s) (id : ℕ) {outcome : Outcome ρ} (hnot : outcome.isAnswer = false) :
    Sound (Calls.settle { s with pending := s.pending.erase id } id outcome) := by
  refine Sound.settle ?_ (by simp [hnot])
  exact h.of_frame rfl le_rfl rfl rfl (List.Subset.refl _) fun _ _ hj _ => hj

lemma step (h : Sound s) (cfg : Config π) (event : Event π ρ) : Sound (step cfg s event) := by
  cases event with
  | start found =>
    simp only [Calls.step, start]
    split
    · exact h
    · refine Sound.startOnce ?_ cfg found true
      exact h.congr rfl rfl rfl rfl rfl rfl
  | restart i found =>
    simp only [Calls.step, restart]
    split
    · refine Sound.startOnce ?_ cfg found false
      exact h.congr rfl rfl rfl rfl rfl rfl
    · exact h
  | call method params =>
    simp only [Calls.step, call]
    split
    · exact h
    · exact h.callTo cfg _ method params
  | data now => exact h.congr rfl rfl rfl rfl rfl rfl
  | hear i => exact h.hear i
  | lose i => exact h.takeLine i
  | check id now =>
    simp only [Calls.step, check]
    split
    · split
      · exact h.congr rfl rfl rfl rfl rfl rfl
      · exact h.giveUp id rfl
    · exact h
  | writeFailed id message =>
    simp only [Calls.step, writeFailed]
    split
    · exact h.giveUp id rfl
    · exact h
  | stop =>
    simp only [Calls.step, stop]
    split
    · exact h.congr rfl rfl rfl rfl rfl rfl
    · refine Sound.rejectAll ?_ rfl
      exact h.congr rfl rfl rfl rfl rfl rfl
  | answer i body => exact h.answer i body
  | emit p name payload =>
    simp only [Calls.step, emit]
    split
    · refine ⟨h.issued, h.requests, h.served, h.once, fun id body hline => ?_, h.settled⟩
      rcases List.mem_append.mp hline with hline | hline
      · exact h.flight id body hline
      · cases List.mem_singleton.mp hline
    · exact h
  | die p =>
    simp only [Calls.step, die]
    split
    · exact h.congr rfl rfl rfl rfl rfl rfl
    · exact h
  | exit p =>
    simp only [Calls.step, exit]
    split
    · refine Sound.onExit ?_
      exact h.congr rfl rfl rfl rfl rfl rfl
    · exact h

lemma run (h : Sound s) (cfg : Config π) (events : List (Event π ρ)) :
    Sound (run cfg s events) := by
  induction events generalizing s with
  | nil => exact h
  | cons event events ih => exact ih (h.step cfg event)

/-- A request has one answer. -/
lemma served_unique (h : Sound s) {e e' : Served π ρ} (he : e ∈ s.served) (he' : e' ∈ s.served)
    (hid : e'.request.id = e.request.id) : e' = e :=
  List.inj_on_of_nodup_map (List.nodup_append.mp h.once).2.1 he' he hid

end Sound

/-- **A call is resolved by the answer to its own request.** Whatever the order of answers, losses,
crashes and restarts, an outcome that the service decided is the only answer that any process ever
gave to the request of that call. -/
theorem resolved_by_own_answer (cfg : Config π) (now : ℤ) (events : List (Event π ρ)) (id : ℕ)
    (outcome : Outcome ρ)
    (h : (run cfg { lastActivityAt := now } events).settled.lookup id = some outcome)
    (hanswer : outcome.isAnswer) :
    ∃ e ∈ (run cfg { lastActivityAt := now } events).served,
      (run cfg { lastActivityAt := now } events).issued.lookup id = some e.request ∧
      e.body.outcome = outcome ∧
      ∀ e' ∈ (run cfg { lastActivityAt := now } events).served,
        e'.request.id = id → e' = e := by
  have hsound := (Sound.init (π := π) (ρ := ρ) now).run cfg events
  obtain ⟨e, he, rfl, hbody⟩ := hsound.settled id outcome h hanswer
  exact ⟨e, he, hsound.served e he, hbody, fun e' he' hid => hsound.served_unique he he' hid⟩

/-- A channel without parameters whose lines are short. -/
def bareConfig : Config Unit := { textLength := fun _ => 0, noParams := () }

/-- The first ping is answered, and its response is heard. -/
def pinged : List (Event Unit ℕ) := [.start true, .answer 0 (.result 7), .data 1, .hear 0]

theorem resolved_by_own_answer_pinged :
    ∃ e ∈ (run bareConfig { lastActivityAt := 0 } pinged).served,
      (run bareConfig { lastActivityAt := 0 } pinged).issued.lookup 1 = some e.request ∧
      e.body.outcome = .resolved 7 ∧
      ∀ e' ∈ (run bareConfig { lastActivityAt := 0 } pinged).served,
        e'.request.id = 1 → e' = e :=
  resolved_by_own_answer bareConfig 0 pinged 1 (.resolved 7) (by decide) rfl

/-! ## Accounting -/

/-- **Every call is settled or pending, and not both.** A pending call has its idle check armed and
a process whose exit the shell has yet to hear of. -/
structure Accounted (s : State π ρ) : Prop where
  positive : 0 < s.nextId
  ids : ∀ id, (s.pending.lookup id).isSome ∨ (s.settled.lookup id).isSome ↔
    0 < id ∧ id < s.nextId
  apart : ∀ id, (s.pending.lookup id).isSome → s.settled.lookup id = none
  armed : ∀ id call, s.pending.lookup id = some call → call.timer.isSome
  waiting : s.child = none → s.pending = ∅
  child : ∀ p, s.child = some p → ∃ q, s.processes[p]? = some q ∧ q ≠ .reaped
  issued : ∀ id, (s.issued.lookup id).isSome → 0 < id ∧ id < s.nextId

namespace Accounted

variable {s s' : State π ρ}

lemma init (now : ℤ) : Accounted ({ lastActivityAt := now } : State π ρ) where
  positive := Nat.one_pos
  ids id := by
    change false = true ∨ false = true ↔ 0 < id ∧ id < 1
    simp only [Bool.false_eq_true, or_self, false_iff]
    omega
  apart _ h := by simp at h
  armed _ _ h := by simp at h
  waiting _ := rfl
  child _ h := by simp at h
  issued _ h := by simp at h

/-- Neither the calls nor their processes change. -/
lemma congr (h : Accounted s) (hpending : s'.pending = s.pending)
    (hsettled : s'.settled = s.settled) (hnext : s'.nextId = s.nextId)
    (hissued : s'.issued = s.issued) (hchild : s'.child = s.child)
    (hprocesses : s'.processes = s.processes) : Accounted s' where
  positive := hnext ▸ h.positive
  ids := by
    rw [hpending, hsettled, hnext]
    exact h.ids
  apart := by
    rw [hpending, hsettled]
    exact h.apart
  armed := by
    rw [hpending]
    exact h.armed
  waiting := by
    rw [hpending, hchild]
    exact h.waiting
  child := by
    rw [hchild, hprocesses]
    exact h.child
  issued := by
    rw [hissued, hnext]
    exact h.issued

/-- One call ends. -/
lemma finish (h : Accounted s) {id : ℕ} (hid : 0 < id ∧ id < s.nextId) (outcome : Outcome ρ) :
    Accounted (settle { s with pending := s.pending.erase id } id outcome) := by
  have hlookup := lookup_settle { s with pending := s.pending.erase id } id outcome
  obtain ⟨delay, promise, heq⟩ := settle_eq { s with pending := s.pending.erase id } id outcome
  rw [heq]
  refine ⟨h.positive, fun j => ?_, fun j hj => ?_, fun j call hj => ?_, fun hchild => ?_, h.child,
    h.issued⟩
  · rw [hlookup, Table.lookup_erase']
    by_cases hj : j = id
    · subst hj
      cases hsettled : s.settled.lookup j <;> simpa [hsettled] using hid
    · simpa [hj] using h.ids j
  · rw [hlookup]
    rw [Table.lookup_erase'] at hj
    split_ifs at hj with heq
    · cases hj
    · simpa [heq] using h.apart j hj
  · rw [Table.lookup_erase'] at hj
    split_ifs at hj
    exact h.armed j call hj
  · dsimp only
    rw [h.waiting hchild]
    rfl

/-- All calls end, and the child is gone. -/
lemma finishAll (h : Accounted s) (hpending : s'.pending = s.pending)
    (hsettled : s'.settled = s.settled) (hnext : s'.nextId = s.nextId)
    (hissued : s'.issued = s.issued) (hchild : s'.child = none) (outcome : Outcome ρ) :
    Accounted (rejectAll s' outcome) := by
  have hlookup := lookup_rejectAll s' outcome
  obtain ⟨delay, promise, heq⟩ := rejectAll_eq s' outcome
  rw [heq]
  refine ⟨hnext ▸ h.positive, fun j => ?_, fun j hj => absurd hj (by simp), fun j call hj => absurd hj (by simp),
    fun _ => rfl, fun p hp => ?_, fun id hid => ?_⟩
  · rw [hlookup, hpending, hsettled, hnext, ← h.ids j]
    change false = true ∨ _ ↔ _
    cases hp : (s.pending.lookup j).isSome <;> cases hs : s.settled.lookup j <;> simp
  · dsimp only at hp
    rw [hchild] at hp
    cases hp
  · dsimp only at hid
    rw [hissued] at hid
    rw [hnext]
    exact h.issued id hid

lemma callTo (h : Accounted s) (cfg : Config π) {child : ℕ} (hchild : s.child = some child)
    (method : String) (params : π) : Accounted (callTo cfg s child method params) := by
  have hfresh : ¬((s.pending.lookup s.nextId).isSome ∨ (s.settled.lookup s.nextId).isSome) :=
    fun hid => lt_irrefl _ ((h.ids s.nextId).mp hid).2
  rw [not_or, Option.not_isSome_iff_eq_none, Option.not_isSome_iff_eq_none] at hfresh
  obtain ⟨hpending, hsettled⟩ := hfresh
  have hgrow : ∀ id, 0 < id ∧ id < s.nextId + 1 ↔ id = s.nextId ∨ 0 < id ∧ id < s.nextId := by
    intro id
    have hpositive := h.positive
    omega
  unfold Calls.callTo
  dsimp only
  split
  · have hlookup := lookup_settle { s with nextId := s.nextId + 1 } s.nextId (.tooLarge method)
    obtain ⟨delay, promise, heq⟩ := settle_eq { s with nextId := s.nextId + 1 } s.nextId
      (.tooLarge method : Outcome ρ)
    rw [heq]
    refine ⟨Nat.succ_pos _, fun j => ?_, fun j hj => ?_, h.armed, h.waiting, h.child,
      fun id hid => (hgrow id).mpr (.inr (h.issued id hid))⟩
    · rw [hlookup, hgrow, ← h.ids j]
      by_cases hj : j = s.nextId
      · subst hj
        simp [hsettled]
      · simp [hj]
    · rw [hlookup, if_neg]
      · simpa using h.apart j hj
      · rintro rfl
        rw [hpending] at hj
        cases hj
  · refine ⟨Nat.succ_pos _, fun j => ?_, fun j hj => ?_, fun j call hj => ?_, fun hnone => ?_,
      h.child, fun id hid => ?_⟩
    · rw [Table.lookup_insert', hgrow, ← h.ids j]
      by_cases hj : j = s.nextId
      · simp [hj]
      · simp [hj]
    · rw [Table.lookup_insert'] at hj
      split_ifs at hj with heq
      · exact heq ▸ hsettled
      · exact h.apart j hj
    · rw [Table.lookup_insert'] at hj
      split_ifs at hj
      · rw [← Option.some.inj hj]
        rfl
      · exact h.armed j call hj
    · dsimp only at hnone
      rw [hchild] at hnone
      cases hnone
    · rw [Table.lookup_insert'] at hid
      rw [hgrow]
      split_ifs at hid with heq
      · exact .inl heq
      · exact .inr (h.issued id hid)

lemma startOnce (h : Accounted s) (cfg : Config π) (found awaited : Bool) :
    Accounted (startOnce cfg s found awaited) := by
  unfold Calls.startOnce
  split
  · refine Accounted.callTo ?_ cfg rfl _ _
    refine ⟨h.positive, h.ids, h.apart, h.armed, fun hnone => absurd hnone (by simp), fun p hp => ?_,
      h.issued⟩
    obtain rfl := Option.some.inj hp
    exact ⟨.running, by simp, by simp⟩
  · exact h

lemma onLine (h : Accounted s) (line : Line ρ) : Accounted (onLine s line) := by
  cases line with
  | event name payload => exact h
  | response id body =>
    simp only [Calls.onLine]
    split
    · next hpending => exact h.finish ((h.ids id).mp (.inl hpending)) _
    · exact h

lemma onExit (h : Accounted s) (p : ℕ) :
    Accounted (onExit { s with processes := s.processes.set p .reaped }) := by
  have hreject : Accounted (Calls.rejectAll
      { s with processes := s.processes.set p .reaped, child := none } .exited) := by
    refine h.finishAll ?_ ?_ ?_ ?_ ?_ _ <;> rfl
  unfold Calls.onExit
  dsimp only
  split
  · exact hreject
  · exact hreject.congr rfl rfl rfl rfl rfl rfl

lemma check (h : Accounted s) (cfg : Config π) (id : ℕ) (now : ℤ) :
    Accounted (check cfg s id now) := by
  unfold Calls.check
  split
  · next method timer hcall =>
    have hsome : (s.pending.lookup id).isSome := by simp [hcall]
    dsimp only
    split
    · refine ⟨h.positive, fun j => ?_, fun j hj => ?_, fun j call hj => ?_, fun hnone => ?_,
        h.child, h.issued⟩
      · rw [← h.ids j, Table.lookup_insert']
        by_cases hj : j = id
        · subst hj
          simp [hsome]
        · simp [hj]
      · rw [Table.lookup_insert'] at hj
        split_ifs at hj with heq
        · exact heq ▸ h.apart id hsome
        · exact h.apart j hj
      · rw [Table.lookup_insert'] at hj
        split_ifs at hj
        · rw [← Option.some.inj hj]
          rfl
        · exact h.armed j call hj
      · rw [h.waiting hnone] at hcall
        cases hcall
    · exact h.finish ((h.ids id).mp (.inl hsome)) _
  · exact h

/-- The processes change, and the child is still known. -/
lemma die (h : Accounted s) (p : ℕ) : Accounted (die s p) := by
  unfold Calls.die
  split
  · refine ⟨h.positive, h.ids, h.apart, h.armed, h.waiting, fun q hq => ?_, h.issued⟩
    obtain ⟨process, hprocess, hnot⟩ := h.child q hq
    by_cases hp : p = q
    · subst hp
      refine ⟨.dead, ?_, by simp⟩
      rw [List.getElem?_set_self (List.getElem?_eq_some_iff.mp hprocess).1]
    · exact ⟨process, by rwa [List.getElem?_set_ne hp], hnot⟩
  · exact h

lemma step (h : Accounted s) (cfg : Config π) (event : Event π ρ) :
    Accounted (step cfg s event) := by
  cases event with
  | start found =>
    simp only [Calls.step, start]
    split
    · exact h
    · refine Accounted.startOnce ?_ cfg found true
      exact h.congr rfl rfl rfl rfl rfl rfl
  | restart i found =>
    simp only [Calls.step, restart]
    split
    · refine Accounted.startOnce ?_ cfg found false
      exact h.congr rfl rfl rfl rfl rfl rfl
    · exact h
  | call method params =>
    simp only [Calls.step, call]
    split
    · exact h
    · next child hchild => exact h.callTo cfg hchild method params
  | data now => exact h.congr rfl rfl rfl rfl rfl rfl
  | hear i =>
    simp only [Calls.step, hear]
    split
    · refine Accounted.onLine ?_ _
      exact h.congr rfl rfl rfl rfl rfl rfl
    · exact h
  | lose i => exact h.congr rfl rfl rfl rfl rfl rfl
  | check id now => exact h.check cfg id now
  | writeFailed id message =>
    simp only [Calls.step, writeFailed]
    split
    · next hissued => exact h.finish (h.issued id hissued) _
    · exact h
  | stop =>
    simp only [Calls.step, stop]
    split
    · exact h.congr rfl rfl rfl rfl rfl rfl
    · refine h.finishAll ?_ ?_ ?_ ?_ ?_ _ <;> rfl
  | answer i body =>
    simp only [Calls.step, answer]
    split
    · split
      · exact h.congr rfl rfl rfl rfl rfl rfl
      · exact h
    · exact h
  | emit p name payload =>
    simp only [Calls.step, emit]
    split
    · exact h.congr rfl rfl rfl rfl rfl rfl
    · exact h
  | die p => exact h.die p
  | exit p =>
    simp only [Calls.step, exit]
    split
    · exact h.onExit p
    · exact h

lemma run (h : Accounted s) (cfg : Config π) (events : List (Event π ρ)) :
    Accounted (run cfg s events) := by
  induction events generalizing s with
  | nil => exact h
  | cons event events ih => exact ih (h.step cfg event)

end Accounted

/-- A check after a silence of the whole window ends the call. -/
lemma check_silent {cfg : Config π} {s : State π ρ} {id : ℕ} {method : String} {timer now : ℤ}
    (hcall : s.pending.lookup id = some ⟨method, some timer⟩)
    (hopen : s.settled.lookup id = none) (hsilent : cfg.idleTimeoutMs ≤ now - s.lastActivityAt) :
    (check cfg s id now).settled.lookup id = some (.timedOut method) := by
  unfold check
  rw [hcall]
  dsimp only
  rw [if_neg (by omega), lookup_settle, hopen]
  simp

/-- **No call is lost, and none can wait for ever.** In every state of every run a call that was
given an id is settled and no longer pending, or it is pending with its idle check armed, on a
process whose exit is still to be reported, and the check ends it once nothing has been heard for
the whole window. -/
theorem accounted_run (cfg : Config π) (start : ℤ) (events : List (Event π ρ)) (id : ℕ)
    (hpos : 0 < id) (hid : id < (run cfg { lastActivityAt := start } events).nextId) :
    let s := run cfg { lastActivityAt := start } events
    (s.pending.lookup id = none ∧ (s.settled.lookup id).isSome) ∨
      s.settled.lookup id = none ∧ ∃ method timer p q,
        s.pending.lookup id = some ⟨method, some timer⟩ ∧
        s.child = some p ∧ s.processes[p]? = some q ∧ q ≠ .reaped ∧
        ∀ now, cfg.idleTimeoutMs ≤ now - s.lastActivityAt →
          (check cfg s id now).settled.lookup id = some (.timedOut method) := by
  intro s
  have h : Accounted s := (Accounted.init start).run cfg events
  cases hcall : s.pending.lookup id with
  | none =>
    rcases (h.ids id).mpr ⟨hpos, hid⟩ with hpending | hsettled
    · rw [hcall] at hpending
      cases hpending
    · exact .inl ⟨rfl, hsettled⟩
  | some call =>
    have hopen := h.apart id (by simp [hcall])
    obtain ⟨method, timer⟩ := call
    obtain ⟨timer, rfl⟩ := Option.isSome_iff_exists.mp (h.armed id _ hcall)
    cases hchild : s.child with
    | none =>
      rw [h.waiting hchild] at hcall
      cases hcall
    | some p =>
      obtain ⟨q, hq, hnot⟩ := h.child p hchild
      exact .inr ⟨hopen, method, timer, p, q, rfl, rfl, hq, hnot,
        fun now hsilent => check_silent hcall hopen hsilent⟩

theorem accounted_run_started :
    let s := run bareConfig { lastActivityAt := 0 } [(.start true : Event Unit ℕ)]
    (s.pending.lookup 1 = none ∧ (s.settled.lookup 1).isSome) ∨
      s.settled.lookup 1 = none ∧ ∃ method timer p q,
        s.pending.lookup 1 = some ⟨method, some timer⟩ ∧
        s.child = some p ∧ s.processes[p]? = some q ∧ q ≠ .reaped ∧
        ∀ now, bareConfig.idleTimeoutMs ≤ now - s.lastActivityAt →
          (check bareConfig s 1 now).settled.lookup 1 = some (.timedOut method) :=
  accounted_run bareConfig 0 [.start true] 1 Nat.one_pos (by decide)

end Calls

end TuxBooks
