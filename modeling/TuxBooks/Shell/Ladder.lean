import TuxBooks.Lib.Guarded
import TuxBooks.Shell.Calls

set_option relaxedAutoImplicit false
set_option autoImplicit false

/-!
# The processes of the sidecar

Which processes the shell spawns over a run of `TuxBooks.Calls`: the start, the restart ladder, and
the stop.

## Main definitions

* `TuxBooks.Calls.spawning` — the part of the state that decides it.
* `TuxBooks.Calls.Single` — one process or one restart timer.
* `TuxBooks.Calls.Over` — the service was stopped, and no restart timer is armed.

## Main results

* `TuxBooks.Calls.single_run` — the ladder never runs two processes.
* `TuxBooks.Calls.stop_is_final` — nothing is spawned after a stop that finds no timer armed.
-/

namespace TuxBooks

namespace Calls

variable {π ρ : Type}

/-! ## Processes -/

section Spawning

variable (s : State π ρ) (outcome : Outcome ρ) (cfg : Config π)

/-- What decides which processes run: the child, the restart timers, and whether it is over. -/
def spawning : Option ℕ × List ℕ × Bool × List Process :=
  (s.child, s.restarts, s.stopped, s.processes)

lemma spawning_settle (id : ℕ) : spawning (settle s id outcome) = spawning s := by
  obtain ⟨delay, promise, heq⟩ := settle_eq s id outcome
  rw [heq]
  rfl

lemma spawning_rejectAll : spawning (rejectAll s outcome) = spawning s := by
  obtain ⟨delay, promise, heq⟩ := rejectAll_eq s outcome
  rw [heq]
  rfl

lemma spawning_callTo (child : ℕ) (method : String) (params : π) :
    spawning (callTo cfg s child method params) = spawning s := by
  unfold callTo
  dsimp only
  split
  · exact spawning_settle _ _ _
  · rfl

/-- A start of a binary that is there runs one process more. -/
lemma spawning_startOnce (awaited : Bool) : spawning (startOnce cfg s true awaited) =
    (some s.processes.length, s.restarts, false, s.processes ++ [.running]) := by
  rw [startOnce, if_pos rfl]
  exact spawning_callTo _ _ _ _ _

/-- The exit of a process arms one restart timer, unless the service was stopped. -/
lemma spawning_onExit : ∃ armed : List ℕ, armed.length = (if s.stopped then 0 else 1) ∧
    spawning (onExit s) = (none, s.restarts ++ armed, s.stopped, s.processes) := by
  have hreject := spawning_rejectAll { s with child := none } (.exited : Outcome ρ)
  simp only [spawning, Prod.mk.injEq] at hreject
  obtain ⟨hchild, hrestarts, hstopped, hprocesses⟩ := hreject
  rcases Bool.eq_false_or_eq_true s.stopped with hover | hover
  · refine ⟨[], by simp [hover], ?_⟩
    unfold onExit
    dsimp only
    rw [if_pos (hstopped.trans hover)]
    simp only [spawning, hchild, hrestarts, hstopped, hprocesses, List.append_nil]
  · refine ⟨[(rejectAll { s with child := none } (.exited : Outcome ρ)).restartDelay],
      by simp [hover], ?_⟩
    unfold onExit
    dsimp only
    rw [if_neg (by rw [hstopped, hover]; exact Bool.false_ne_true)]
    simp only [spawning, hchild, hrestarts, hstopped, hprocesses]

/-- Events that are neither a start, a restart, a stop nor the end of a process. -/
lemma spawning_step {event : Event π ρ} (hstart : ∀ found, event ≠ .start found)
    (hrestart : ∀ i found, event ≠ .restart i found) (hstop : event ≠ .stop)
    (hdie : ∀ p, event ≠ .die p) (hexit : ∀ p, event ≠ .exit p) :
    spawning (step cfg s event) = spawning s := by
  cases event with
  | start found => exact absurd rfl (hstart found)
  | restart i found => exact absurd rfl (hrestart i found)
  | stop => exact absurd rfl hstop
  | die p => exact absurd rfl (hdie p)
  | exit p => exact absurd rfl (hexit p)
  | call method params =>
    simp only [step, call]
    split
    · rfl
    · exact spawning_callTo _ _ _ _ _
  | data now => rfl
  | hear i =>
    simp only [step, hear]
    split
    · next line _ =>
      cases line with
      | event name payload => rfl
      | response id body =>
        simp only [onLine]
        split
        · exact spawning_settle _ _ _
        · rfl
    · rfl
  | lose i => rfl
  | check id now =>
    simp only [step, check]
    split
    · split
      · rfl
      · exact spawning_settle _ _ _
    · rfl
  | writeFailed id message =>
    simp only [step, writeFailed]
    split
    · exact spawning_settle _ _ _
    · rfl
  | answer i body =>
    simp only [step, answer]
    split
    · split <;> rfl
    · rfl
  | emit p name payload =>
    simp only [step, emit]
    split <;> rfl

end Spawning

/-- The processes whose exit has not been reported. -/
def live (s : State π ρ) : ℕ := s.processes.countP (· ≠ .reaped)

/-- How the app uses the channel: it starts the service once, and no restart timer fires after it
has stopped the service. -/
def Used (s : State π ρ) : Event π ρ → Prop
  | .start _ => s.startPromise ∨ s.processes = []
  | .restart _ _ => s.stopped = false
  | _ => True

/-- One process or one restart timer, and the process is the child or was told to end. -/
structure Single (s : State π ρ) : Prop where
  one : live s + s.restarts.length ≤ 1
  child : ∀ p q, s.processes[p]? = some q → q ≠ .reaped → s.child = some p ∨ s.stopped
  fresh : s.processes = [] → s.restarts = []

namespace Single

variable {s s' : State π ρ}

lemma init (now : ℤ) : Single ({ lastActivityAt := now } : State π ρ) :=
  ⟨Nat.zero_le _, by simp, fun _ => rfl⟩

lemma congr (h : Single s) (heq : spawning s' = spawning s) : Single s' := by
  simp only [spawning, Prod.mk.injEq] at heq
  obtain ⟨hchild, hrestarts, hstopped, hprocesses⟩ := heq
  refine ⟨?_, ?_, ?_⟩
  · rw [live, hprocesses, hrestarts]
    exact h.one
  · rw [hprocesses, hchild, hstopped]
    exact h.child
  · rw [hprocesses, hrestarts]
    exact h.fresh

/-- With no process left and no timer armed, one process is spawned. -/
lemma spawn (hlive : live s = 0) (hrestarts : s.restarts = []) (hfresh : Single s)
    (cfg : Config π) (found awaited : Bool) : Single (startOnce cfg s found awaited) := by
  cases found with
  | false => exact hfresh
  | true =>
    have heq := spawning_startOnce s cfg awaited
    simp only [spawning, Prod.mk.injEq] at heq
    obtain ⟨hchild, htimers, -, hprocesses⟩ := heq
    have hreaped : ∀ q ∈ s.processes, q = .reaped := by
      simpa [live, List.countP_eq_zero] using hlive
    refine ⟨?_, fun p q hq hnot => ?_, fun hnil => ?_⟩
    · rw [live, hprocesses, htimers, hrestarts, List.countP_append, ← live, hlive]
      simp
    · left
      rw [hprocesses, List.getElem?_append] at hq
      split_ifs at hq with hlt
      · exact absurd (hreaped q (List.mem_of_getElem? hq)) hnot
      · rw [hchild]
        rw [List.getElem?_singleton] at hq
        split_ifs at hq with hzero
        exact congrArg some (by omega)
    · rw [hprocesses] at hnil
      simp at hnil

/-- The exit of the one process leaves no process, and one timer at most. -/
lemma exit (h : Single s) (p : ℕ) : Single (exit s p) := by
  unfold Calls.exit
  split
  · next hdead =>
    obtain ⟨hlt, hget⟩ := List.getElem?_eq_some_iff.mp hdead
    obtain ⟨armed, harmed, heq⟩ := spawning_onExit { s with processes := s.processes.set p .reaped }
    simp only [spawning, Prod.mk.injEq] at heq
    obtain ⟨hchild, htimers, hstopped, hprocesses⟩ := heq
    have hpositive : 0 < live s := List.countP_pos_iff.mpr
      ⟨_, List.getElem_mem hlt, by simp [hget]⟩
    have hone := h.one
    have hcount : (s.processes.set p .reaped).countP (· ≠ .reaped) = 0 := by
      rw [List.countP_set hlt, hget]
      change live s - 1 + 0 = 0
      omega
    refine ⟨?_, fun p' q hq hnot => ?_, fun hnil => ?_⟩
    · rw [live, hprocesses, hcount, htimers, List.length_append, harmed]
      split_ifs <;> omega
    · rw [hprocesses] at hq
      have hreaped := List.countP_eq_zero.mp hcount q (List.mem_of_getElem? hq)
      exact absurd (by simpa using hreaped) hnot
    · rw [hprocesses, List.set_eq_nil_iff] at hnil
      rw [hnil] at hlt
      cases hlt
  · exact h

lemma die (h : Single s) (p : ℕ) : Single (die s p) := by
  unfold Calls.die
  split
  · next hrunning =>
    obtain ⟨hlt, hget⟩ := List.getElem?_eq_some_iff.mp hrunning
    refine ⟨?_, fun p' q hq hnot => ?_, fun hnil => ?_⟩
    · have hone := h.one
      have hpositive : 0 < live s := List.countP_pos_iff.mpr
        ⟨_, List.getElem_mem hlt, by simp [hget]⟩
      rw [live]
      dsimp only
      rw [List.countP_set hlt, hget]
      change live s - 1 + 1 + s.restarts.length ≤ 1
      omega
    · rw [List.getElem?_set] at hq
      split_ifs at hq with hp
      · subst hp
        exact h.child p .running hrunning (by simp)
      · exact h.child p' q hq hnot
    · dsimp only at hnil
      rw [List.set_eq_nil_iff] at hnil
      exact h.fresh hnil
  · exact h

lemma step (h : Single s) (cfg : Config π) {event : Event π ρ} (hused : Used s event) :
    Single (step cfg s event) := by
  have hone := h.one
  cases event with
  | start found =>
    simp only [Calls.step, start]
    split
    · exact h
    · next hpromise =>
      have hnil : s.processes = [] := hused.resolve_left hpromise
      refine Single.spawn (s := { s with startPromise := found }) ?_ ?_ (h.congr rfl) cfg found true
      · rw [live]
        dsimp only
        rw [hnil]
        rfl
      · exact h.fresh hnil
  | restart i found =>
    simp only [Calls.step, restart]
    split
    · next hlt =>
      have hlive : live s = 0 := by omega
      have hlen : (s.restarts.eraseIdx i).length = 0 := by
        rw [List.length_eraseIdx_of_lt hlt]
        omega
      have hnone : s.restarts.eraseIdx i = [] := List.length_eq_zero_iff.mp hlen
      refine Single.spawn (s := { s with restarts := s.restarts.eraseIdx i }) ?_ ?_
        ⟨?_, h.child, fun _ => hnone⟩ cfg found false
      · exact hlive
      · exact hnone
      · change live s + (s.restarts.eraseIdx i).length ≤ 1
        omega
    · exact h
  | stop =>
    simp only [Calls.step, stop]
    split
    · exact ⟨hone, fun _ _ _ _ => .inr rfl, h.fresh⟩
    · refine Single.congr (s := { s with stopped := true, child := none }) ?_
        (spawning_rejectAll _ _)
      exact ⟨hone, fun _ _ _ _ => .inr rfl, h.fresh⟩
  | die p => exact h.die p
  | exit p => exact h.exit p
  | _ =>
    refine h.congr (spawning_step s cfg ?_ ?_ ?_ ?_ ?_) <;> simp

end Single

/-- **The ladder never runs two processes.** When the app starts the service once and no restart
timer fires after a stop, at most one process is not reaped at any time, that process is the one the
shell talks to unless it was told to end, and a restart is due only when there is none. -/
theorem single_run (cfg : Config π) (start : ℤ) (events : List (Event π ρ))
    (h : Guarded.Meets (step cfg) Used { lastActivityAt := start } events) :
    let s := run cfg { lastActivityAt := start } events
    live s ≤ 1 ∧
      (∀ p q, s.processes[p]? = some q → q ≠ .reaped → s.child = some p ∨ s.stopped) ∧
      (s.restarts ≠ [] → live s = 0) := by
  intro s
  have hsingle : Single s := h.invariant (fun s event hs hused => hs.step cfg hused)
    (Single.init start)
  have hone := hsingle.one
  refine ⟨by omega, hsingle.child, fun harmed => ?_⟩
  have hpos := List.length_pos_iff.mpr harmed
  omega

/-- The service starts, dies, and is spawned again. -/
def restarted : List (Event Unit ℕ) := [.start true, .die 0, .exit 0, .restart 0 true]

theorem single_run_restarted :
    let s := run bareConfig { lastActivityAt := 0 } restarted
    live s ≤ 1 ∧
      (∀ p q, s.processes[p]? = some q → q ≠ .reaped → s.child = some p ∨ s.stopped) ∧
      (s.restarts ≠ [] → live s = 0) :=
  single_run bareConfig 0 restarted ⟨.inr rfl, trivial, trivial, rfl, trivial⟩

/-- The service is over: it was stopped, and no restart timer is armed. -/
structure Over (processes : ℕ) (s : State π ρ) : Prop where
  stopped : s.stopped = true
  child : s.child = none
  restarts : s.restarts = []
  processes : s.processes.length = processes

namespace Over

variable {processes : ℕ} {s s' : State π ρ}

lemma congr (h : Over processes s) (heq : spawning s' = spawning s) : Over processes s' := by
  simp only [spawning, Prod.mk.injEq] at heq
  obtain ⟨hchild, hrestarts, hstopped, hprocesses⟩ := heq
  exact ⟨hstopped.trans h.stopped, hchild.trans h.child, hrestarts.trans h.restarts,
    (congrArg List.length hprocesses).trans h.processes⟩

/-- Without a start, a service that is over stays so. -/
lemma step (h : Over processes s) (cfg : Config π) {event : Event π ρ}
    (hstart : ∀ found, event ≠ .start found) : Over processes (step cfg s event) := by
  cases event with
  | start found => exact absurd rfl (hstart found)
  | restart i found =>
    simp only [Calls.step, restart, h.restarts, List.length_nil, Nat.not_lt_zero, if_false]
    exact h
  | stop =>
    simp only [Calls.step, stop, h.child]
    exact ⟨rfl, rfl, h.restarts, h.processes⟩
  | die p =>
    simp only [Calls.step, die]
    split
    · exact ⟨h.stopped, h.child, h.restarts, by simpa using h.processes⟩
    · exact h
  | exit p =>
    simp only [Calls.step, exit]
    split
    · obtain ⟨armed, harmed, heq⟩ :=
        spawning_onExit { s with processes := s.processes.set p .reaped }
      have hnone : armed = [] := List.length_eq_zero_iff.mp (by simpa [h.stopped] using harmed)
      simp only [spawning, Prod.mk.injEq, hnone, List.append_nil] at heq
      obtain ⟨hchild, hrestarts, hstopped, hprocesses⟩ := heq
      refine ⟨hstopped.trans h.stopped, hchild, hrestarts.trans h.restarts, ?_⟩
      rw [hprocesses, List.length_set, h.processes]
    · exact h
  | _ =>
    refine h.congr (spawning_step s cfg ?_ ?_ ?_ ?_ ?_) <;> simp

lemma run (h : Over processes s) (cfg : Config π) (events : List (Event π ρ))
    (hstart : ∀ event ∈ events, ∀ found, event ≠ .start found) :
    Over processes (run cfg s events) := by
  induction events generalizing s with
  | nil => exact h
  | cons event events ih =>
    exact ih (h.step cfg (hstart event List.mem_cons_self))
      fun e he => hstart e (List.mem_cons_of_mem _ he)

end Over

/-- **Stop is final** when no restart timer is armed: whatever happens later, short of a new start,
no process is spawned, none is scheduled, and no call is accepted. -/
theorem stop_is_final (cfg : Config π) (s : State π ρ) (events : List (Event π ρ))
    (harmed : s.restarts = []) (hstart : ∀ event ∈ events, ∀ found, event ≠ .start found) :
    let s' := run cfg (stop s) events
    s'.processes.length = s.processes.length ∧ s'.restarts = [] ∧
      ∀ method params, call cfg s' method params = (s', .error .notRunning) := by
  intro s'
  have hstop : Over s.processes.length (stop s) := by
    unfold stop
    split
    · next hchild => exact ⟨rfl, hchild, harmed, rfl⟩
    · refine Over.congr (s := { s with stopped := true, child := none }) ?_ (spawning_rejectAll _ _)
      exact ⟨rfl, rfl, harmed, rfl⟩
  have hover := hstop.run cfg events hstart
  refine ⟨hover.processes, hover.restarts, fun method params => ?_⟩
  unfold call
  rw [hover.child]

theorem stop_is_final_started :
    let s := run bareConfig { lastActivityAt := 0 } [(.start true : Event Unit ℕ)]
    let s' := run bareConfig (stop s) [.die 0, .exit 0]
    s'.processes.length = s.processes.length ∧ s'.restarts = [] ∧
      ∀ method params, call bareConfig s' method params = (s', .error .notRunning) :=
  stop_is_final bareConfig _ [.die 0, .exit 0] (by decide) (by simp)

end Calls

end TuxBooks
