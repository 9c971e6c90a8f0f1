import TuxBooks.Lib.Fallible
import TuxBooks.Lib.Guarded

set_option relaxedAutoImplicit false
set_option autoImplicit false

/-!
# Routines that share a store

A routine asks a store one request at a time and goes on with the answer. Several calls of
routines take turns on one store, each request being one atomic step, so that any call may run
between two requests of another. A request may fail; then the call ends, and what it wrote before
stays.

The proof rule is rely and guarantee. A call is safe in a state if, whatever the others do within
the rely relation, each of its requests keeps the invariant and stays within the same relation.

## Main definitions

* `Routine` — a routine, `Routine.run` — a routine on its own.
* `Routine.Safe` — safe whatever the other calls do.
* `Routine.Obeys` — every request is one that the call may ask after its log.
* `Routine.Pool`, `Routine.Pool.step` — calls in progress on one store.

## Main results

* `Routine.Safe.bind`, `Routine.Safe.frame`, `Routine.safe_request` — the rules of the logic.
* `Routine.Obeys.bind`, `Routine.Pool.obeys_step` — what a call may ask, over runs.
* `Routine.Pool.Sound.step` — a step of one call keeps all of them safe.
* `Routine.Pool.invariant` — the invariant holds in every state of a run.
-/

/-- A routine asks one request after the other. -/
inductive Routine {Req : Type} (Ans : Req → Type) (α : Type) where
  | done (a : α)
  | ask (q : Req) (next : Ans q → Routine Ans α)

namespace Routine

variable {Req : Type} {Ans : Req → Type} {α β σ ε E : Type}

/-! ## Composition -/

/-- Run a second routine on the result of the first. -/
def andThen : Routine Ans α → (α → Routine Ans β) → Routine Ans β
  | done a, f => f a
  | ask q next, f => ask q fun x => (next x).andThen f

/-- The routine of one request. -/
def request (q : Req) : Routine Ans (Ans q) := ask q done

instance : Monad (Routine Ans) where
  pure := done
  bind := andThen

/-- The routine is over. -/
def isDone : Routine Ans α → Bool
  | done _ => true
  | ask .. => false

section Logic

variable (exec : E → (q : Req) → σ → σ × Except ε (Ans q))

/-- A routine on its own: every request is asked with the same drawn values. -/
def run (e : E) : Routine Ans α → σ → σ × Except ε α
  | done a, s => (s, .ok a)
  | ask q next, s =>
    match exec e q s with
    | (s, .ok a) => (next a).run e s
    | (s, .error err) => (s, .error err)

lemma run_request (e : E) (q : Req) (s : σ) : (request q).run exec e s = exec e q s := by
  rw [request, run]
  rcases exec e q s with ⟨s', err | a⟩
  · rfl
  · rfl

/-- Alone, a routine that is followed by another one runs before it. -/
lemma run_bind (e : E) (r : Routine Ans α) (f : α → Routine Ans β) (s : σ) :
    (r >>= f).run exec e s =
      Fallible.andThen (r.run exec e s) fun s a => (f a).run exec e s := by
  change (r.andThen f).run exec e s = _
  induction r generalizing s with
  | done a => rfl
  | ask q next ih =>
    rw [andThen, run, run]
    rcases exec e q s with ⟨s', err | a⟩
    · rfl
    · exact ih a s'

/-! ## The logic -/

/-- The requests a call has asked, with their answers, the last one first. -/
abbrev Log (Ans : Req → Type) : Type := List (Sigma Ans)

variable (ok : Log Ans → Req → σ → Prop) (inv : σ → Prop) (rely : σ → σ → Prop)

/-- Safe in a state: as long as the other calls stay within `rely` and each request meets `ok`
in the state it is asked in, every request keeps `inv` and stays within `rely`, and `post` holds
at the end. -/
def Safe (post : α → Log Ans → σ → Prop) : Routine Ans α → Log Ans → σ → Prop
  | done a, log, s => ∀ s', rely s s' → inv s' → post a log s'
  | ask q next, log, s => ∀ s', rely s s' → inv s' → ok log q s' → ∀ e : E,
      (inv (exec e q s').1 ∧ rely s' (exec e q s').1) ∧
        ∀ a, (exec e q s').2 = .ok a → Safe post (next a) (⟨q, a⟩ :: log) (exec e q s').1

variable {exec ok inv rely} {post : α → Log Ans → σ → Prop} {log : Log Ans} {s s' : σ}
variable (htrans : ∀ s s' s'', rely s s' → rely s' s'' → rely s s'')
variable (hrefl : ∀ s, rely s s)

include htrans in
/-- What the other calls do leaves a call safe. -/
lemma Safe.of_rely {r : Routine Ans α} (h : Safe exec ok inv rely post r log s) (hs : rely s s') :
    Safe exec ok inv rely post r log s' := by
  cases r with
  | done a => exact fun s'' hs' => h s'' (htrans s s' s'' hs hs')
  | ask q next => exact fun s'' hs' => h s'' (htrans s s' s'' hs hs')

/-- A weaker postcondition. -/
lemma Safe.mono {post' : α → Log Ans → σ → Prop} {r : Routine Ans α}
    (h : Safe exec ok inv rely post r log s)
    (hpost : ∀ a log s, inv s → post a log s → post' a log s) :
    Safe exec ok inv rely post' r log s := by
  induction r generalizing log s with
  | done a => exact fun s' hs hinv => hpost a log s' hinv (h s' hs hinv)
  | ask q next ih =>
    intro s' hs hinv hok e
    obtain ⟨hstep, hnext⟩ := h s' hs hinv hok e
    exact ⟨hstep, fun a ha => ih a (hnext a ha)⟩

include hrefl in
/-- **The rule of sequencing.** -/
theorem Safe.bind {post' : β → Log Ans → σ → Prop} {r : Routine Ans α}
    {f : α → Routine Ans β} (h : Safe exec ok inv rely post r log s) (hinv : inv s)
    (hf : ∀ a log s, inv s → post a log s → Safe exec ok inv rely post' (f a) log s) :
    Safe exec ok inv rely post' (r >>= f) log s := by
  induction r generalizing log s with
  | done a => exact hf a log s hinv (h s (hrefl s) hinv)
  | ask q next ih =>
    intro s' hs hinv' hok e
    obtain ⟨hstep, hnext⟩ := h s' hs hinv' hok e
    exact ⟨hstep, fun a ha => ih a (hnext a ha) hstep.1⟩

/-- **The frame rule.** What no step within `rely` can make false still holds at the end. -/
theorem Safe.frame {F : σ → Prop} (hF : ∀ s s', rely s s' → F s → F s') {r : Routine Ans α}
    (h : Safe exec ok inv rely post r log s) (hs : F s) :
    Safe exec ok inv rely (fun a log s => post a log s ∧ F s) r log s := by
  induction r generalizing log s with
  | done a => exact fun s' hrely hinv => ⟨h s' hrely hinv, hF s s' hrely hs⟩
  | ask q next ih =>
    intro s' hrely hinv hok e
    obtain ⟨hstep, hnext⟩ := h s' hrely hinv hok e
    exact ⟨hstep, fun a ha => ih a (hnext a ha) (hF _ _ hstep.2 (hF s s' hrely hs))⟩

/-- A routine that is over is safe if the others keep its postcondition. -/
lemma safe_pure {a : α} (h : ∀ s', rely s s' → inv s' → post a log s') :
    Safe exec ok inv rely post (pure a) log s := h

/-- **The rule of a request.** -/
theorem safe_request {q : Req} {post : Ans q → Log Ans → σ → Prop}
    (hstep : ∀ s', rely s s' → inv s' → ok log q s' → ∀ e,
      inv (exec e q s').1 ∧ rely s' (exec e q s').1)
    (hpost : ∀ s', rely s s' → inv s' → ok log q s' → ∀ e a, (exec e q s').2 = .ok a →
      ∀ s'', rely (exec e q s').1 s'' → inv s'' → post a (⟨q, a⟩ :: log) s'') :
    Safe exec ok inv rely post (request q) log s :=
  fun s' hs hinv hok e => ⟨hstep s' hs hinv hok e, fun a ha s'' hs' hinv' =>
    hpost s' hs hinv hok e a ha s'' hs' hinv'⟩

end Logic

/-! ## What a call may ask -/

section Obeys

/-- Every request is one that the call may ask after what it has asked before, whatever the
answers, and `post` holds at the end. -/
def Obeys (may : List (Sigma Ans) → Req → Prop) (post : α → List (Sigma Ans) → Prop) :
    Routine Ans α → List (Sigma Ans) → Prop
  | done a, log => post a log
  | ask q next, log => may log q ∧ ∀ a, Obeys may post (next a) (⟨q, a⟩ :: log)

variable {may : List (Sigma Ans) → Req → Prop} {post : α → List (Sigma Ans) → Prop}
variable {log : List (Sigma Ans)}

/-- A weaker postcondition, with what the log held before. -/
lemma Obeys.mono {post' : α → List (Sigma Ans) → Prop} {r : Routine Ans α}
    (h : Obeys may post r log)
    (hpost : ∀ a log', log <:+ log' → post a log' → post' a log') : Obeys may post' r log := by
  induction r generalizing log with
  | done a => exact hpost a log (List.suffix_refl log) h
  | ask q next ih =>
    refine ⟨h.1, fun a => ih a (h.2 a) fun b log' hlog => hpost b log' ?_⟩
    exact (List.suffix_cons _ _).trans hlog

/-- **The rule of sequencing** for what a call may ask. -/
theorem Obeys.bind {post' : β → List (Sigma Ans) → Prop} {r : Routine Ans α}
    {f : α → Routine Ans β} (h : Obeys may post r log)
    (hf : ∀ a log', log <:+ log' → post a log' → Obeys may post' (f a) log') :
    Obeys may post' (r >>= f) log := by
  induction r generalizing log with
  | done a => exact hf a log (List.suffix_refl log) h
  | ask q next ih =>
    refine ⟨h.1, fun a => ih a (h.2 a) fun b log' hlog => hf b log' ?_⟩
    exact (List.suffix_cons _ _).trans hlog

lemma obeys_pure {a : α} (h : post a log) : Obeys may post (pure a) log := h

lemma obeys_request {q : Req} {post : Ans q → List (Sigma Ans) → Prop} (h : may log q)
    (hpost : ∀ a, post a (⟨q, a⟩ :: log)) : Obeys may post (request q) log := ⟨h, hpost⟩

end Obeys

/-! ## Calls in progress -/

/-- One call: what it has asked so far and the rest of its routine. -/
structure Call (Ans : Req → Type) (α : Type) where
  log : Log Ans := []
  rest : Routine Ans α

/-- The calls in progress on one store. -/
structure Pool (Ans : Req → Type) (α σ : Type) where
  store : σ
  calls : List (Call Ans α) := []

/-- A new call, the next request of a call, or the end of a call at a request that fails. -/
inductive Move (Args E : Type) where
  | start (args : Args)
  | step (call : ℕ) (drawn : E)
  | abort (call : ℕ)

namespace Pool

variable {Args : Type} (exec : E → (q : Req) → σ → σ × Except ε (Ans q))
variable (routine : Args → Routine Ans α) (ok : Log Ans → Req → σ → Prop)

/-- Every call has returned. -/
def Returned (p : Pool Ans α σ) : Prop := ∀ c ∈ p.calls, c.rest.isDone

instance (p : Pool Ans α σ) : Decidable p.Returned :=
  inferInstanceAs (Decidable (∀ c ∈ p.calls, c.rest.isDone))

/-- Ask the next request of a call. -/
def askNext (p : Pool Ans α σ) (i : ℕ) (e : E) : Pool Ans α σ :=
  match p.calls[i]? with
  | some ⟨log, ask q next⟩ =>
    match exec e q p.store with
    | (s, .ok a) => ⟨s, p.calls.set i ⟨⟨q, a⟩ :: log, next a⟩⟩
    | (s, .error _) => ⟨s, p.calls.eraseIdx i⟩
  | _ => p

def step (p : Pool Ans α σ) : Move Args E → Pool Ans α σ
  | .start args => { p with calls := p.calls ++ [⟨[], routine args⟩] }
  | .step i e => p.askNext exec i e
  | .abort i => { p with calls := p.calls.eraseIdx i }

/-- The next request of a call meets the condition. -/
def Meets (p : Pool Ans α σ) : Move Args E → Prop
  | .step i _ =>
    match p.calls[i]? with
    | some ⟨log, ask q _⟩ => ok log q p.store
    | _ => True
  | _ => True

instance decidableMeets [∀ log q s, Decidable (ok log q s)] (p : Pool Ans α σ) :
    ∀ move : Move Args E, Decidable (p.Meets ok move)
  | .start _ | .abort _ => isTrue trivial
  | .step i _ =>
    match hcall : p.calls[i]? with
    | some ⟨log, ask q _⟩ => decidable_of_iff (ok log q p.store) (by simp only [Meets, hcall])
    | some ⟨_, done _⟩ => isTrue (by simp only [Meets, hcall])
    | none => isTrue (by simp only [Meets, hcall])

/-- **Every call in progress goes on asking what it may.** -/
theorem obeys_step {may : Log Ans → Req → Prop} {post : α → Log Ans → Prop} {p : Pool Ans α σ}
    (h : ∀ c ∈ p.calls, Obeys may post c.rest c.log)
    (hstart : ∀ args, Obeys may post (routine args) []) (move : Move Args E) :
    ∀ c ∈ (p.step exec routine move).calls, Obeys may post c.rest c.log := by
  intro c hc
  cases move with
  | start args =>
    rcases List.mem_append.mp hc with hc | hc
    · exact h c hc
    · rw [List.mem_singleton.mp hc]
      exact hstart args
  | abort i => exact h c (List.mem_of_mem_eraseIdx hc)
  | step i e =>
    replace hc : c ∈ (p.askNext exec i e).calls := hc
    unfold askNext at hc
    split at hc
    · next log q next hcall =>
      have hobeys := h _ (List.mem_of_getElem? hcall)
      split at hc
      · next s a heq =>
        rcases List.mem_or_eq_of_mem_set hc with hc | rfl
        · exact h c hc
        · exact hobeys.2 a
      · exact h c (List.mem_of_mem_eraseIdx hc)
    · exact h c hc

variable (inv : σ → Prop) (rely : σ → σ → Prop)

/-- The store meets the invariant and every call is safe. -/
structure Sound (p : Pool Ans α σ) : Prop where
  store : inv p.store
  calls : ∀ c ∈ p.calls, Safe exec ok inv rely (fun _ _ _ => True) c.rest c.log p.store

variable {exec ok inv rely routine} {p : Pool Ans α σ}
variable (htrans : ∀ s s' s'', rely s s' → rely s' s'' → rely s s'')
variable (hrefl : ∀ s, rely s s)

include htrans hrefl in
lemma Sound.askNext (h : Sound exec ok inv rely p) {i : ℕ} {e : E}
    (hok : p.Meets ok (.step i e : Move Args E)) :
    Sound exec ok inv rely (p.askNext exec i e) := by
  unfold Pool.askNext
  split
  · next log q next hcall =>
    replace hok : ok log q p.store := by simpa only [Meets, hcall] using hok
    have hmem : (⟨log, ask q next⟩ : Call Ans α) ∈ p.calls := List.mem_of_getElem? hcall
    obtain ⟨⟨hinv, hrely⟩, hnext⟩ := h.calls _ hmem p.store (hrefl p.store) h.store hok e
    -- the other calls see a step within `rely`
    have hothers : ∀ c ∈ p.calls,
        Safe exec ok inv rely (fun _ _ _ => True) c.rest c.log (exec e q p.store).1 :=
      fun c hc => (h.calls c hc).of_rely htrans hrely
    split
    · next s a heq =>
      rw [heq] at hinv hnext hothers
      refine ⟨hinv, fun c hc => ?_⟩
      rcases List.mem_or_eq_of_mem_set hc with hc | rfl
      · exact hothers c hc
      · exact hnext a rfl
    · next s err heq =>
      rw [heq] at hinv hothers
      exact ⟨hinv, fun c hc => hothers c (List.mem_of_mem_eraseIdx hc)⟩
  · exact h

include htrans hrefl in
/-- **A step of one call keeps all of them safe.** -/
theorem Sound.step (h : Sound exec ok inv rely p)
    (hstart : ∀ args s, inv s →
      Safe exec ok inv rely (fun _ _ _ => True) (routine args) [] s)
    (move : Move Args E) (hok : p.Meets ok move) :
    Sound exec ok inv rely (p.step exec routine move) := by
  cases move with
  | start args =>
    refine ⟨h.store, fun c hc => ?_⟩
    rcases List.mem_append.mp hc with hc | hc
    · exact h.calls c hc
    · rw [List.mem_singleton.mp hc]
      exact hstart args p.store h.store
  | step i e => exact h.askNext htrans hrefl hok
  | abort i => exact ⟨h.store, fun c hc => h.calls c (List.mem_of_mem_eraseIdx hc)⟩

include htrans hrefl in
/-- **The invariant holds after every run** whose requests all meet the condition. -/
theorem invariant {s : σ} {moves : List (Move Args E)} (hs : inv s)
    (hstart : ∀ args s, inv s →
      Safe exec ok inv rely (fun _ _ _ => True) (routine args) [] s)
    (h : Guarded.Meets (Pool.step exec routine) (Pool.Meets ok) ⟨s, []⟩ moves) :
    inv (moves.foldl (Pool.step exec routine) ⟨s, []⟩).store := by
  have hinit : Sound exec ok inv rely (⟨s, []⟩ : Pool Ans α σ) :=
    ⟨hs, fun c hc => absurd hc List.not_mem_nil⟩
  exact (Guarded.Meets.invariant
    (fun p move hp hok => hp.step htrans hrefl hstart move hok) hinit h).store

end Pool

end Routine
