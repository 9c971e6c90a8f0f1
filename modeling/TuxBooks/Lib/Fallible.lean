import Mathlib.Data.List.Basic

set_option relaxedAutoImplicit false
set_option autoImplicit false

/-!
# Computations that keep their state when they fail

A database routine that stops with an error leaves behind what it wrote before. Its result is a
pair of the state reached and the answer, and a later step runs only when the answer is a value.

## Main definitions

* `Fallible.andThen` — run the next step unless an error came before.
* `Fallible.each` — run one step for every element of a list, stopping at the first error.
* `Fallible.Ends` — a computation fails for an allowed reason, or its value is as it should be.

## Main results

* `Fallible.andThen_inv`, `Fallible.each_inv` — a property that every step keeps holds afterwards,
  whether or not the computation failed.
* `Fallible.each_ok` — if every step succeeds from a state of an invariant, so does the loop.
* `Fallible.bind_eq_ok`, `Fallible.foldlM_inv` — the same for results without a state.
* `Fallible.foldlM_map` — a loop on two representations of its state.
* `Fallible.Ends.bind`, `Fallible.Ends.foldlM_append` — the rules of composition.
-/

namespace Fallible

variable {σ ε α β : Type*}

/-- Run `f` on the state reached unless an error came before. -/
def andThen (r : σ × Except ε α) (f : σ → α → σ × Except ε β) : σ × Except ε β :=
  match r with
  | (s, .ok a) => f s a
  | (s, .error e) => (s, .error e)

/-- Run `f` for every element of a list and stop at the first error. -/
def each (f : σ → α → σ × Except ε Unit) : σ → List α → σ × Except ε Unit
  | s, [] => (s, .ok ())
  | s, a :: as => andThen (f s a) fun s _ => each f s as

@[simp] lemma andThen_ok (s : σ) (a : α) (f : σ → α → σ × Except ε β) :
    andThen (s, .ok a) f = f s a := rfl

@[simp] lemma andThen_error (s : σ) (e : ε) (f : σ → α → σ × Except ε β) :
    andThen (s, (.error e : Except ε α)) f = (s, .error e) := rfl

/-- After a step that succeeded the next one runs. -/
lemma andThen_of_ok {r : σ × Except ε α} {a : α} (h : r.2 = .ok a) (f : σ → α → σ × Except ε β) :
    andThen r f = f r.1 a := by
  obtain ⟨s, _⟩ := r
  cases h
  rfl

@[simp] lemma each_nil (f : σ → α → σ × Except ε Unit) (s : σ) : each f s [] = (s, .ok ()) := rfl

lemma each_cons (f : σ → α → σ × Except ε Unit) (s : σ) (a : α) (as : List α) :
    each f s (a :: as) = andThen (f s a) fun s _ => each f s as := rfl

/-- What a failure leaves behind and what the next step reaches holds after a sequence. -/
lemma andThen_post {P Q : σ → Prop} {r : σ × Except ε α} {f : σ → α → σ × Except ε β}
    (hr : P r.1) (hfail : ∀ s, P s → Q s) (hf : ∀ s a, P s → Q (f s a).1) :
    Q (andThen r f).1 := by
  obtain ⟨s, _ | a⟩ := r
  · exact hfail s hr
  · exact hf s a hr

/-- What holds after a failure and after the next step holds after a sequence. -/
lemma andThen_split {Q : σ → Prop} {r : σ × Except ε α} {f : σ → α → σ × Except ε β}
    (hfail : ∀ e, r.2 = .error e → Q r.1) (hok : ∀ a, r.2 = .ok a → Q (f r.1 a).1) :
    Q (andThen r f).1 := by
  obtain ⟨s, e | a⟩ := r
  · exact hfail e rfl
  · exact hok a rfl

/-- A step keeps what holds after the computation before it and after itself. -/
lemma andThen_inv {P : σ → Prop} {r : σ × Except ε α} {f : σ → α → σ × Except ε β}
    (hr : P r.1) (hf : ∀ s a, P s → P (f s a).1) : P (andThen r f).1 :=
  andThen_post hr (fun _ h => h) hf

/-- A sequence succeeds exactly when both of its steps do. -/
lemma andThen_eq_ok {r : σ × Except ε α} {f : σ → α → σ × Except ε β} {b : β} :
    (andThen r f).2 = .ok b ↔ ∃ a, r.2 = .ok a ∧ (f r.1 a).2 = .ok b := by
  obtain ⟨s, _ | a⟩ := r <;> simp

/-- A loop keeps what each of its steps keeps. -/
lemma each_inv {P : σ → Prop} {f : σ → α → σ × Except ε Unit}
    (hf : ∀ s a, P s → P (f s a).1) : ∀ (as : List α) (s : σ), P s → P (each f s as).1
  | [], _, hs => hs
  | a :: as, s, hs => andThen_inv (hf s a hs) fun s _ hs => each_inv hf as s hs

/-- A loop whose steps succeed in the states of an invariant succeeds. -/
lemma each_ok {P : σ → Prop} {f : σ → α → σ × Except ε Unit}
    (hf : ∀ s a, P s → P (f s a).1 ∧ (f s a).2 = .ok ()) :
    ∀ (as : List α) (s : σ), P s → (each f s as).2 = .ok ()
  | [], _, _ => rfl
  | a :: as, s, hs => by
    obtain ⟨hstep, hok⟩ := hf s a hs
    rw [each_cons, andThen_eq_ok]
    exact ⟨(), hok, each_ok hf as _ hstep⟩

/-! ## Results without a state -/

/-- A sequence that succeeds has two steps that do. -/
lemma bind_eq_ok {ε α β : Type} {first : Except ε α} {next : α → Except ε β} {result : β}
    (h : (first >>= next) = .ok result) : ∃ value, first = .ok value ∧ next value = .ok result := by
  cases first with
  | error err => cases h
  | ok value => exact ⟨value, rfl, h⟩

/-- A loop that succeeds keeps what each of its steps keeps. -/
lemma foldlM_inv {σ ε α : Type} {P : σ → Prop} {f : σ → α → Except ε σ}
    (hf : ∀ s a s', P s → f s a = .ok s' → P s') {as : List α} {s s' : σ} (hs : P s)
    (h : as.foldlM f s = .ok s') : P s' := by
  induction as generalizing s with
  | nil => exact Except.ok.inj h ▸ hs
  | cons a as ih =>
    rw [List.foldlM_cons] at h
    obtain ⟨s₁, hstep, hrest⟩ := bind_eq_ok h
    exact ih (hf s a s₁ hs hstep) hrest

/-- A loop commutes with what each of its steps commutes with. -/
lemma foldlM_map {σ τ ε α : Type} {f : σ → α → Except ε σ} {g : τ → α → Except ε τ} {h : σ → τ}
    (hstep : ∀ s a, g (h s) a = (f s a).map h) (as : List α) (s : σ) :
    as.foldlM g (h s) = (as.foldlM f s).map h := by
  induction as generalizing s with
  | nil => rfl
  | cons a as ih =>
    rw [List.foldlM_cons, List.foldlM_cons, hstep]
    cases f s a with
    | error e => rfl
    | ok s' => exact ih s'

/-! ## Failures that are allowed -/

section Ends

variable {σ ε α β : Type} {allowed : ε → Prop}

/-- The computation fails for an allowed reason, or its value is as it should be. -/
inductive Ends (allowed : ε → Prop) (post : α → Prop) : Except ε α → Prop
  | ok {a : α} (h : post a) : Ends allowed post (.ok a)
  | error {e : ε} (h : allowed e) : Ends allowed post (.error e)

lemma Ends.mono {post post' : α → Prop} {x : Except ε α} (h : Ends allowed post x)
    (himp : ∀ a, post a → post' a) : Ends allowed post' x := by
  cases h with
  | ok h => exact .ok (himp _ h)
  | error h => exact .error h

/-- The value is the one that the computation ends with. -/
lemma Ends.value {post : α → Prop} {x : Except ε α} (h : Ends allowed post x) :
    Ends allowed (fun a => post a ∧ x = .ok a) x := by
  cases h with
  | ok h => exact .ok ⟨h, rfl⟩
  | error h => exact .error h

/-- A sequence ends as its second step does, from where the first one ends. -/
lemma Ends.bind {mid : α → Prop} {post : β → Prop} {x : Except ε α} {f : α → Except ε β}
    (h : Ends allowed mid x) (hf : ∀ a, mid a → Ends allowed post (f a)) :
    Ends allowed post (x >>= f) := by
  cases h with
  | ok h => exact hf _ h
  | error h => exact .error h

/-- A loop over two lists ends as the loop over the second one does. -/
lemma Ends.foldlM_append {mid post : σ → Prop} {f : σ → α → Except ε σ} {as bs : List α} {s : σ}
    (h : Ends allowed mid (as.foldlM f s))
    (hbs : ∀ s', mid s' → Ends allowed post (bs.foldlM f s')) :
    Ends allowed post ((as ++ bs).foldlM f s) := by
  rw [List.foldlM_append]
  exact h.bind hbs

end Ends

end Fallible
