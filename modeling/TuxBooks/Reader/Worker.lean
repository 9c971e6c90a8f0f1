import Mathlib.Data.List.Nodup
import TuxBooks.Lib.Guarded

set_option relaxedAutoImplicit false
set_option autoImplicit false

/-!
# The requests to a PDF worker

`WorkerClient` (`frontend/src/lib/pdf/pdfWorkerClient.ts`) numbers the requests to one worker and
keeps the promises of those that wait for an answer in a map. `PdfiumDocument`
(`frontend/src/lib/pdf/pdfiumEngine.ts`) chains its renders: the next one is asked when the one
before has settled.

A promise that is resolved or rejected leaves an entry in a log. The watch for stalled requests and
the diagnostics of the worker settle no promise and are left out, and so is what a render draws with
the bitmap that it got.

## Main definitions

* `TuxBooks.Pdf.Client`, `TuxBooks.Pdf.Document` — the client, and the document with its renders.
* `TuxBooks.Pdf.Event`, `TuxBooks.Pdf.step` — what can happen to them.
* `TuxBooks.Pdf.Settles` — every request settles, once and for a reason of its own.
* `TuxBooks.Pdf.EventMeets` — the condition on an event.

## Main results

* `TuxBooks.Pdf.settles_iff` — the runs in which every request settles.
* `TuxBooks.Pdf.render_waits_forever` — the second of two renders when the worker dies.
-/

namespace TuxBooks

namespace Pdf

/-! ## The client -/

/-- How a promise settles. -/
inductive Settlement (ρ : Type) where
  | resolved (result : ρ)
  | rejected (message : String)
  /-- Rejected with a `PdfRenderCancelledError`. -/
  | cancelled
  deriving DecidableEq

/-- A message of the worker: `ok` with a result, or an error. -/
structure Response (ρ : Type) where
  id : ℕ
  body : Except (Option String) ρ

def Response.settlement {ρ : Type} (r : Response ρ) : Settlement ρ :=
  match r.body with
  | .ok result => .resolved result
  | .error err => .rejected (err.getD "PDFium worker failure")

/-- The client of one worker, with what it has done and heard. -/
structure Client (ρ : Type) where
  nextId : ℕ := 1
  /-- The requests in the map, the oldest first. -/
  pending : List ℕ := []
  failed : Bool := false
  /-- `onFailed` listeners that wait, and those that were called. -/
  failureListeners : List ℕ := []
  notified : List ℕ := []
  terminated : Bool := false
  /-- The requests that were made with `requestCancellable`. -/
  cancellable : List ℕ := []
  /-- Those whose `cancel` was called. -/
  cancelled : List ℕ := []
  /-- The promises that were settled, the last one first. -/
  settled : List (ℕ × Settlement ρ) := []
  /-- The messages of the worker and its failures. -/
  heard : List (Response ρ) := []
  failures : List String := []

namespace Client

variable {ρ : Type}

/-- `pending.delete`, then one of the two functions of the promise. -/
def settle (c : Client ρ) (id : ℕ) (settlement : Settlement ρ) : Client ρ :=
  { c with
    pending := c.pending.filter (· ≠ id)
    settled := (id, settlement) :: c.settled }

/-- What a request's own closures make of a settlement: after `cancel` it is a cancellation. -/
def closure (c : Client ρ) (id : ℕ) (settlement : Settlement ρ) : Settlement ρ :=
  if id ∈ c.cancelled then .cancelled else settlement

/-- `request` and `requestCancellable`: the new request waits in the map. -/
def request (c : Client ρ) (canCancel : Bool) : Client ρ :=
  { c with
    nextId := c.nextId + 1
    pending := c.pending ++ [c.nextId]
    cancellable := if canCancel then c.nextId :: c.cancellable else c.cancellable }

/-- `cancel` of a cancellable request. -/
def cancel (c : Client ρ) (id : ℕ) : Client ρ :=
  if id ∉ c.cancellable ∨ id ∈ c.cancelled then c
  else
    let c := { c with cancelled := id :: c.cancelled }
    if id ∈ c.pending then c.settle id .cancelled else c

/-- `worker.onmessage`. -/
def onmessage (c : Client ρ) (r : Response ρ) : Client ρ :=
  let c := { c with heard := r :: c.heard }
  if r.id ∈ c.pending then c.settle r.id (c.closure r.id r.settlement) else c

/-- The error of a failure whose event has this message. -/
def failure (message : String) : String :=
  if message = "" then "PDFium worker failed to load" else message

/-- `worker.onerror`: every pending request is rejected, and the listeners hear about it. -/
def onerror (c : Client ρ) (message : String) : Client ρ :=
  { c with
    pending := []
    failed := true
    settled := (c.pending.map fun id =>
      (id, c.closure id (.rejected (failure message)))).reverse ++ c.settled
    failureListeners := []
    notified := c.notified ++ c.failureListeners
    failures := failure message :: c.failures }

/-- A listener of a worker that is gone is called at once; else it joins the set of those that
wait. -/
def onFailed (c : Client ρ) (listener : ℕ) : Client ρ :=
  if c.failed then { c with notified := c.notified ++ [listener] }
  else if listener ∈ c.failureListeners then c
  else { c with failureListeners := c.failureListeners ++ [listener] }

/-- The function that `onFailed` returned. -/
def unsubscribe (c : Client ρ) (listener : ℕ) : Client ρ :=
  { c with failureListeners := c.failureListeners.filter (· ≠ listener) }

def terminate (c : Client ρ) : Client ρ := { c with terminated := true }

end Client

/-! ## The document -/

/-- A render of the tail: whether its canvas has cancelled it, and its request once it has one. -/
structure Job where
  ticket : ℕ
  cancelled : Bool := false
  request : Option ℕ := none

/-- A document with the renders that have not settled, the next one first. -/
structure Document (ρ : Type) extends Client ρ where
  destroyed : Bool := false
  tickets : ℕ := 0
  renderTail : List Job := []
  /-- The renders that have settled, the last one first. -/
  rendered : List (ℕ × Settlement ρ) := []

namespace Document

variable {ρ : Type}

def onClient (d : Document ρ) (c : Client ρ) : Document ρ := { d with toClient := c }

/-- `getPage`, `getOutline` and `getTextLines` when the answer is not cached. -/
def ask (d : Document ρ) : Document ρ :=
  if d.destroyed then d else d.onClient (d.request false)

/-- `renderPage`: a render joins the tail. -/
def renderPage (d : Document ρ) : Document ρ :=
  if d.destroyed then d
  else { d with
    tickets := d.tickets + 1
    renderTail := d.renderTail ++ [{ ticket := d.tickets }] }

/-- `cancel` of a render. -/
def cancelRender (d : Document ρ) (ticket : ℕ) : Document ρ :=
  { d with renderTail := d.renderTail.map fun job =>
      if job.ticket = ticket then { job with cancelled := true } else job }

/-- The first render settles, and the tail goes on. -/
def finish (d : Document ρ) (job : Job) (settlement : Settlement ρ) (rest : List Job) :
    Document ρ :=
  { d with renderTail := rest, rendered := (job.ticket, settlement) :: d.rendered }

/-- A cancelled render drops the bitmap that it got. -/
def Job.outcome (job : Job) (settlement : Settlement ρ) : Settlement ρ :=
  match settlement with
  | .resolved result => if job.cancelled then .cancelled else .resolved result
  | settlement => settlement

/-- One turn of the render tail: `run` asks its request, or goes on when it is settled. -/
def advance (d : Document ρ) : Document ρ :=
  match d.renderTail with
  | [] => d
  | job :: rest =>
    match job.request with
    | none =>
      if job.cancelled then d.finish job .cancelled rest
      else { d.onClient (d.request true) with
        renderTail := { job with request := some d.nextId } :: rest }
    | some id =>
      match d.settled.find? (·.1 = id) with
      | none => d
      | some (_, settlement) => d.finish job (Job.outcome job settlement) rest

def destroy (d : Document ρ) : Document ρ :=
  if d.destroyed then d else { d.onClient d.terminate with destroyed := true }

end Document

/-- What can happen: calls of the client and of the document, messages and failures of the worker,
and turns of the render tail. -/
inductive Event (ρ : Type) where
  | request (canCancel : Bool)
  | cancel (id : ℕ)
  | message (r : Response ρ)
  | error (message : String)
  | onFailed (listener : ℕ)
  | unsubscribe (listener : ℕ)
  | terminate
  | ask
  | renderPage
  | cancelRender (ticket : ℕ)
  | advance
  | destroy

variable {ρ : Type}

def step (d : Document ρ) : Event ρ → Document ρ
  | .request canCancel => d.onClient (d.request canCancel)
  | .cancel id => d.onClient (d.cancel id)
  | .message r => d.onClient (d.onmessage r)
  | .error message => d.onClient (d.onerror message)
  | .onFailed listener => d.onClient (d.onFailed listener)
  | .unsubscribe listener => d.onClient (d.unsubscribe listener)
  | .terminate => d.onClient d.terminate
  | .ask => d.ask
  | .renderPage => d.renderPage
  | .cancelRender ticket => d.cancelRender ticket
  | .advance => d.advance
  | .destroy => d.destroy

/-! ## What a settlement comes from -/

/-- A settlement comes from an answer to the request, from a failure of the worker, or from its
cancellation. -/
def Client.Reason (c : Client ρ) (id : ℕ) (settlement : Settlement ρ) : Prop :=
  (∃ r ∈ c.heard, r.id = id ∧ r.settlement = settlement) ∨
    (c.failed = true ∧ ∃ message ∈ c.failures, settlement = .rejected message) ∨
      (settlement = .cancelled ∧ id ∈ c.cancelled)

/-- Every request is in the map, or it has settled once. -/
structure Client.Sound (c : Client ρ) : Prop where
  first : 1 ≤ c.nextId
  pending : c.pending.Nodup
  once : (c.settled.map (·.1)).Nodup
  apart : ∀ e ∈ c.settled, e.1 ∉ c.pending
  issued : ∀ id, (1 ≤ id ∧ id < c.nextId) ↔ (id ∈ c.pending ∨ ∃ e ∈ c.settled, e.1 = id)
  own : ∀ e ∈ c.settled, c.Reason e.1 e.2

namespace Client.Sound

variable {c : Client ρ}

/-- A request settles. -/
lemma settle (h : c.Sound) {id : ℕ} (hid : id ∈ c.pending) {settlement : Settlement ρ}
    (hown : c.Reason id settlement) : (c.settle id settlement).Sound where
  first := h.first
  pending := h.pending.filter _
  once := by
    have hnew : id ∉ c.settled.map (·.1) := by
      intro hmem
      obtain ⟨e, he, rfl⟩ := List.mem_map.mp hmem
      exact h.apart e he hid
    exact List.nodup_cons.mpr ⟨hnew, h.once⟩
  apart e he := by
    rcases List.mem_cons.mp he with rfl | he
    · simp [Client.settle]
    · exact fun hmem => h.apart e he (List.mem_of_mem_filter hmem)
  issued id' := by
    refine (h.issued id').trans ?_
    simp only [Client.settle, List.mem_filter, List.mem_cons, exists_eq_or_imp]
    by_cases heq : id' = id
    · subst heq
      simp [hid]
    · simp [heq, Ne.symm heq]
  own e he := by
    rcases List.mem_cons.mp he with rfl | he
    · exact hown
    · exact h.own e he

/-- A new request waits. -/
lemma request (h : c.Sound) (canCancel : Bool) : (c.request canCancel).Sound where
  first := Nat.le_succ_of_le h.first
  pending := by
    have hnew : c.nextId ∉ c.pending := by
      intro hmem
      have := ((h.issued c.nextId).mpr (.inl hmem)).2
      omega
    exact List.nodup_append.mpr ⟨h.pending, List.nodup_singleton _, by
      rintro id hid _ hnext rfl
      exact hnew (List.mem_singleton.mp hnext ▸ hid)⟩
  once := h.once
  apart e he hmem := by
    rcases List.mem_append.mp hmem with hmem | hmem
    · exact h.apart e he hmem
    · have := ((h.issued e.1).mpr (.inr ⟨e, he, rfl⟩)).2
      rw [List.mem_singleton.mp hmem] at this
      omega
  issued id := by
    have hfirst := h.first
    have hid := h.issued id
    simp only [Client.request, List.mem_append, List.mem_singleton]
    by_cases heq : id = c.nextId
    · simp only [heq, or_true, true_or, iff_true]
      omega
    · rw [or_iff_left heq, ← hid]
      omega
  own := h.own

/-- More was heard, or cancelled, and nothing settled. -/
lemma of_history (h : c.Sound) (heard : List (Response ρ)) (cancelled notified listeners : List ℕ)
    (terminated : Bool) (hheard : ∀ r ∈ c.heard, r ∈ heard)
    (hcancelled : ∀ id ∈ c.cancelled, id ∈ cancelled) :
    Client.Sound { c with
      heard := heard
      cancelled := cancelled
      notified := notified
      failureListeners := listeners
      terminated := terminated } where
  first := h.first
  pending := h.pending
  once := h.once
  apart := h.apart
  issued := h.issued
  own e he := by
    rcases h.own e he with ⟨r, hr, hid⟩ | hfailed | ⟨hkind, hid⟩
    · exact .inl ⟨r, hheard r hr, hid⟩
    · exact .inr (.inl hfailed)
    · exact .inr (.inr ⟨hkind, hcancelled _ hid⟩)

lemma cancel (h : c.Sound) (id : ℕ) : (c.cancel id).Sound := by
  have hmore := h.of_history c.heard (id :: c.cancelled) c.notified c.failureListeners c.terminated
    (fun _ hr => hr) fun _ hid => List.mem_cons_of_mem _ hid
  unfold Client.cancel
  dsimp only
  split_ifs with hdone hpending
  · exact h
  · exact hmore.settle hpending (.inr (.inr ⟨rfl, List.mem_cons_self⟩))
  · exact hmore

/-- A closure settles with what it was given, or as cancelled. -/
lemma reason_closure {id : ℕ} {settlement : Settlement ρ} (h : c.Reason id settlement) :
    c.Reason id (c.closure id settlement) := by
  unfold Client.closure
  split_ifs with hid
  · exact .inr (.inr ⟨rfl, hid⟩)
  · exact h

lemma onmessage (h : c.Sound) (r : Response ρ) : (c.onmessage r).Sound := by
  have hmore := h.of_history (r :: c.heard) c.cancelled c.notified c.failureListeners c.terminated
    (fun _ hr => List.mem_cons_of_mem _ hr) fun _ hid => hid
  unfold Client.onmessage
  dsimp only
  split_ifs with hpending
  · exact hmore.settle hpending (reason_closure (.inl ⟨r, List.mem_cons_self, rfl, rfl⟩))
  · exact hmore

/-- A failure settles all that wait. -/
lemma onerror (h : c.Sound) (message : String) : (c.onerror message).Sound where
  first := h.first
  pending := List.nodup_nil
  once := by
    have hids : (c.pending.map fun id =>
        (id, c.closure id (.rejected (failure message)))).reverse.map (·.1) =
          c.pending.reverse := by
      rw [← List.map_reverse, List.map_map]
      exact List.map_id'' (fun _ => rfl) _
    have happart : ∀ id ∈ c.pending.reverse, id ∉ c.settled.map (·.1) := by
      intro id hid hmem
      obtain ⟨e, he, rfl⟩ := List.mem_map.mp hmem
      exact h.apart e he (List.mem_reverse.mp hid)
    rw [Client.onerror, List.map_append, hids]
    exact List.nodup_append.mpr ⟨List.nodup_reverse.mpr h.pending, h.once,
      fun id hid id' hid' heq => happart id hid (heq ▸ hid')⟩
  apart e he := List.not_mem_nil
  issued id := by
    refine (h.issued id).trans ?_
    simp only [Client.onerror, List.not_mem_nil, false_or, List.mem_append, List.mem_reverse,
      List.mem_map]
    constructor
    · rintro (hid | ⟨e, he, rfl⟩)
      · exact ⟨_, .inl ⟨id, hid, rfl⟩, rfl⟩
      · exact ⟨e, .inr he, rfl⟩
    · rintro ⟨e, ⟨id', hid', rfl⟩ | he, rfl⟩
      · exact .inl hid'
      · exact .inr ⟨e, he, rfl⟩
  own e he := by
    rcases List.mem_append.mp he with he | he
    · obtain ⟨id, -, rfl⟩ := List.mem_map.mp (List.mem_reverse.mp he)
      exact reason_closure (c := c.onerror message)
        (.inr (.inl ⟨rfl, failure message, List.mem_cons_self, rfl⟩))
    · rcases h.own e he with hheard | ⟨-, m, hm, hkind⟩ | hcancelled
      · exact .inl hheard
      · exact .inr (.inl ⟨rfl, m, List.mem_cons_of_mem _ hm, hkind⟩)
      · exact .inr (.inr hcancelled)

lemma onFailed (h : c.Sound) (listener : ℕ) : (c.onFailed listener).Sound := by
  unfold Client.onFailed
  split_ifs
  · exact h.of_history c.heard c.cancelled _ c.failureListeners c.terminated (fun _ hr => hr)
      fun _ hid => hid
  · exact h
  · exact h.of_history c.heard c.cancelled c.notified _ c.terminated (fun _ hr => hr)
      fun _ hid => hid

lemma unsubscribe (h : c.Sound) (listener : ℕ) : (c.unsubscribe listener).Sound :=
  h.of_history c.heard c.cancelled c.notified _ c.terminated (fun _ hr => hr) fun _ hid => hid

lemma terminate (h : c.Sound) : c.terminate.Sound :=
  h.of_history c.heard c.cancelled c.notified c.failureListeners true (fun _ hr => hr)
    fun _ hid => hid

end Client.Sound

/-! ## Runs -/

/-- The worker has failed or was terminated. -/
def Client.Gone (c : Client ρ) : Prop := c.failed = true ∨ c.terminated = true

instance (c : Client ρ) : Decidable c.Gone := inferInstanceAs (Decidable (_ ∨ _))

/-- The next turn of the tail asks a request. -/
def Document.asksNext (d : Document ρ) : Bool :=
  match d.renderTail with
  | [] => false
  | job :: _ => job.request.isNone && !job.cancelled

/-- **Every request settles**: at most once and for a reason of its own, and once the worker is gone
nothing waits, not even the render tail. -/
structure Settles (d : Document ρ) : Prop where
  once : (d.settled.map (·.1)).Nodup
  own : ∀ e ∈ d.settled, d.Reason e.1 e.2
  drained : d.Gone → d.pending = []
  moves : d.Gone → ∀ job ∈ d.renderTail, ∀ id, job.request = some id →
    ∃ e ∈ d.settled, e.1 = id

/-- The condition on an event: nothing is asked of a worker that is gone, and a worker is terminated
only when nothing waits for it. -/
def EventMeets (d : Document ρ) : Event ρ → Prop
  | .request _ => ¬d.Gone
  | .ask => d.destroyed = true ∨ ¬d.Gone
  | .advance => d.asksNext = true → ¬d.Gone
  | .terminate => d.pending = []
  | .destroy => d.destroyed = true ∨ d.pending = []
  | _ => True

instance (d : Document ρ) : DecidablePred (EventMeets d)
  | .request _ => inferInstanceAs (Decidable ¬d.Gone)
  | .ask => inferInstanceAs (Decidable (_ ∨ ¬d.Gone))
  | .advance => inferInstanceAs (Decidable (_ → ¬d.Gone))
  | .terminate => inferInstanceAs (Decidable (d.pending = []))
  | .destroy => inferInstanceAs (Decidable (_ ∨ d.pending = []))
  | .cancel _ | .message _ | .error _ | .onFailed _ | .unsubscribe _ | .renderPage
  | .cancelRender _ => isTrue trivial

/-- The invariant of the runs that meet the condition. -/
structure Document.Sound (d : Document ρ) : Prop where
  client : d.toClient.Sound
  jobs : ∀ job ∈ d.renderTail, ∀ id, job.request = some id → 1 ≤ id ∧ id < d.nextId
  drained : d.Gone → d.pending = []

lemma Document.Sound.settles {d : Document ρ} (h : d.Sound) : Settles d where
  once := h.client.once
  own := h.client.own
  drained := h.drained
  moves hgone job hjob id hid := by
    rcases (h.client.issued id).mp (h.jobs job hjob id hid) with hpending | hsettled
    · rw [h.drained hgone] at hpending
      exact absurd hpending List.not_mem_nil
    · exact hsettled

namespace Document.Sound

variable {d : Document ρ}

/-- The client goes on, with requests that it had. -/
lemma onClient (h : d.Sound) {c : Client ρ} (hc : c.Sound) (hnext : d.nextId ≤ c.nextId)
    (hdrained : c.Gone → c.pending = []) : (d.onClient c).Sound where
  client := hc
  jobs job hjob id hid :=
    ⟨(h.jobs job hjob id hid).1, Nat.lt_of_lt_of_le (h.jobs job hjob id hid).2 hnext⟩
  drained := hdrained

/-- A request of a worker that is there. -/
lemma request (h : d.Sound) (canCancel : Bool) (hgone : ¬d.Gone) :
    (d.onClient (d.request canCancel)).Sound :=
  h.onClient (h.client.request canCancel) (Nat.le_succ _) fun hgone' => absurd hgone' hgone

/-- The first render of the tail is replaced, or leaves it. -/
lemma setTail (h : d.Sound) {tail : List Job} (rendered : List (ℕ × Settlement ρ))
    (htail : ∀ job ∈ tail, job ∈ d.renderTail) :
    Document.Sound { d with renderTail := tail, rendered := rendered } where
  client := h.client
  jobs job hjob := h.jobs job (htail job hjob)
  drained := h.drained

lemma advance (h : d.Sound) (hok : d.asksNext = true → ¬d.Gone) : d.advance.Sound := by
  unfold Document.advance
  cases htail : d.renderTail with
  | nil => exact h
  | cons job rest =>
    have hrest : ∀ job' ∈ rest, job' ∈ d.renderTail := by
      rw [htail]
      exact fun job' hjob' => List.mem_cons_of_mem _ hjob'
    dsimp only
    cases hrequest : job.request with
    | none =>
      dsimp only
      split_ifs with hcancelled
      · exact h.setTail _ hrest
      · have hasks : d.asksNext = true := by
          simp [Document.asksNext, htail, hrequest, hcancelled]
        have hasked := h.request true (hok hasks)
        refine ⟨hasked.client, fun job' hjob' id hid => ?_, hasked.drained⟩
        rcases List.mem_cons.mp hjob' with rfl | hjob'
        · obtain rfl := Option.some.inj hid
          exact ⟨h.client.first, Nat.lt_succ_self _⟩
        · exact hasked.jobs job' (hrest job' hjob') id hid
    | some id =>
      dsimp only
      split
      · exact h
      · exact h.setTail _ hrest

/-- **An event keeps the invariant.** -/
theorem step (h : d.Sound) (event : Event ρ) (hok : EventMeets d event) :
    (Pdf.step d event).Sound := by
  cases event with
  | request canCancel => exact h.request canCancel hok
  | cancel id =>
    refine h.onClient (h.client.cancel id) ?_ fun hgone => ?_
    · unfold Client.cancel
      dsimp only
      split_ifs <;> exact Nat.le_refl _
    · have hempty := h.drained
      unfold Client.cancel at hgone ⊢
      dsimp only at hgone ⊢
      split_ifs at hgone ⊢ with hdone hpending
      · exact hempty hgone
      · rw [hempty hgone] at hpending
        exact absurd hpending List.not_mem_nil
      · exact hempty hgone
  | message r =>
    refine h.onClient (h.client.onmessage r) ?_ fun hgone => ?_
    · unfold Client.onmessage
      dsimp only
      split_ifs <;> exact Nat.le_refl _
    · have hempty := h.drained
      unfold Client.onmessage at hgone ⊢
      dsimp only at hgone ⊢
      split_ifs at hgone ⊢ with hpending
      · rw [hempty hgone] at hpending
        exact absurd hpending List.not_mem_nil
      · exact hempty hgone
  | error message => exact h.onClient (h.client.onerror message) (Nat.le_refl _) fun _ => rfl
  | onFailed listener =>
    refine h.onClient (h.client.onFailed listener) ?_ fun hgone => ?_
    · unfold Client.onFailed
      split_ifs <;> exact Nat.le_refl _
    · unfold Client.onFailed at hgone ⊢
      split_ifs at hgone ⊢ <;> exact h.drained hgone
  | unsubscribe listener =>
    exact h.onClient (h.client.unsubscribe listener) (Nat.le_refl _) h.drained
  | terminate => exact h.onClient h.client.terminate (Nat.le_refl _) fun _ => hok
  | ask =>
    change (d.ask).Sound
    unfold Document.ask
    split_ifs with hdestroyed
    · exact h
    · exact h.request false (hok.resolve_left hdestroyed)
  | renderPage =>
    change (d.renderPage).Sound
    unfold Document.renderPage
    split_ifs
    · exact h
    · refine ⟨h.client, fun job hjob id hid => ?_, h.drained⟩
      rcases List.mem_append.mp hjob with hjob | hjob
      · exact h.jobs job hjob id hid
      · rw [List.mem_singleton.mp hjob] at hid
        cases hid
  | cancelRender ticket =>
    refine ⟨h.client, fun job hjob id hid => ?_, h.drained⟩
    obtain ⟨job', hjob', rfl⟩ := List.mem_map.mp hjob
    split_ifs at hid <;> exact h.jobs job' hjob' id hid
  | advance => exact h.advance hok
  | destroy =>
    change (d.destroy).Sound
    unfold Document.destroy
    split_ifs with hdestroyed
    · exact h
    · have hstopped := h.onClient h.client.terminate (Nat.le_refl _) fun _ =>
        hok.resolve_left hdestroyed
      exact ⟨hstopped.client, hstopped.jobs, hstopped.drained⟩

end Document.Sound

/-- A request of a worker that is gone waits for ever. -/
lemma not_settles_of_pending {d : Document ρ} (hgone : d.Gone) (hpending : d.pending ≠ []) :
    ¬Settles d :=
  fun h => hpending (h.drained hgone)

/-- **An event against the condition leaves a request that does not settle.** -/
theorem not_settles_step {d : Document ρ} (event : Event ρ) (hok : ¬EventMeets d event) :
    ¬Settles (step d event) := by
  cases event with
  | request canCancel =>
    exact not_settles_of_pending (Classical.not_not.mp hok)
      (List.append_ne_nil_of_right_ne_nil _ (List.cons_ne_nil _ _))
  | ask =>
    obtain ⟨hdestroyed, hgone⟩ := not_or.mp hok
    have hask : step d .ask = d.onClient (d.request false) := if_neg hdestroyed
    rw [hask]
    exact not_settles_of_pending (Classical.not_not.mp hgone)
      (List.append_ne_nil_of_right_ne_nil _ (List.cons_ne_nil _ _))
  | advance =>
    obtain ⟨hasks, hgone⟩ := Classical.not_imp.mp hok
    change ¬Settles d.advance
    unfold Document.advance
    unfold Document.asksNext at hasks
    cases htail : d.renderTail with
    | nil =>
      rw [htail] at hasks
      cases hasks
    | cons job rest =>
      rw [htail] at hasks
      obtain ⟨hnone, hnot⟩ := Bool.and_eq_true_iff.mp hasks
      have hcancelled : job.cancelled = false := by simpa using hnot
      simp only [Option.isNone_iff_eq_none.mp hnone, hcancelled, Bool.false_eq_true, if_false]
      exact not_settles_of_pending (Classical.not_not.mp hgone)
        (List.append_ne_nil_of_right_ne_nil _ (List.cons_ne_nil _ _))
  | terminate => exact not_settles_of_pending (.inr rfl) hok
  | destroy =>
    obtain ⟨hdestroyed, hpending⟩ := not_or.mp hok
    have hdestroy : step d .destroy = { d.onClient d.terminate with destroyed := true } :=
      if_neg hdestroyed
    rw [hdestroy]
    exact not_settles_of_pending (.inr rfl) hpending
  | _ => exact absurd trivial hok

/-- A client as the constructor makes it, with its document. -/
def start : Document ρ := {}

/-- **Exactly these runs settle every request**: those in which nothing is asked of a worker that is
gone and no worker is terminated while a request waits. -/
theorem settles_iff (events : List (Event ρ)) :
    (∀ before, before <+: events → Settles (before.foldl step start)) ↔
      Guarded.Meets step EventMeets (start : Document ρ) events := by
  have hstart : (start : Document ρ).Sound := by
    refine ⟨⟨Nat.le_refl _, List.nodup_nil, List.nodup_nil, fun e he => absurd he List.not_mem_nil,
      fun id => ?_, fun e he => absurd he List.not_mem_nil⟩, fun job hjob => absurd hjob
      List.not_mem_nil, fun _ => rfl⟩
    simp only [start, List.not_mem_nil, false_and, exists_false, or_self, iff_false]
    omega
  exact (Guarded.meets_iff_always (fun d event h hok => h.step event hok) (fun d h => h.settles)
    (fun d event _ hok => not_settles_step event hok) hstart).symm

/-- Two renders: the worker dies while the first one is in flight, and the tail asks the second. -/
def diesBetween : List (Event ℕ) :=
  [.renderPage, .renderPage, .advance, .error "worker gone", .advance, .advance]

/-- **The second render waits for ever.** Its request was posted to a worker that is gone. -/
theorem render_waits_forever :
    (diesBetween.foldl step start).failed = true ∧
    (diesBetween.foldl step start).pending = [2] ∧
    ¬Settles (diesBetween.foldl step start) :=
  ⟨rfl, rfl, not_settles_of_pending (.inl rfl) (List.cons_ne_nil _ _)⟩

end Pdf

end TuxBooks
