import Mathlib.Data.List.Forall2
import ProviderProtocol.Proofs.Server.Discipline
/-!
# Listings

What the sink of a caller gets from a listing, whatever the implementation pushes and whatever the sink answers.  The
implementation is a tree, so its results depend on what it is told; a run through the tree is `Listing.Pushes`.  The
events are read off a log: `Sink.recorded` is the same sink over a state that keeps one, and recording changes nothing
else (`listResource_recorded`).

`Streams` says step by step what is pushed beside what is received, and every listing goes that way
(`runListing_streams`); where it stops is read off `Streams` alone.
-/
namespace ProviderProtocol

/-- The listing pushes these results, is told after each whether more are wanted, and finishes in this state. -/
inductive Listing.Pushes : Listing σ → List (ListResult × Bool) → σ → Prop
  | finish (s : σ) : Pushes (.finish s) [] s
  | push {r : ListResult} {resume : Bool → Listing σ} {more : Bool} {rest : List (ListResult × Bool)} {s : σ} :
    Pushes (resume more) rest s → Pushes (.push r resume) ((r, more) :: rest) s

namespace Server

open Operation

/-! ## Events -/

/-- The object of a result, if objects were asked for. -/
def ListContext.requested (ctx : ListContext) (r : ListResult) : Option Value :=
  if ctx.includeObject then r.object else none

/-- The event carries what the result has, and its object only if that was asked for. -/
structure Encodes (ctx : ListContext) (r : ListResult) (event : Wire.ListEvent) : Prop where
  identity : IdentityPayload.encodeFor ctx.identitySchema r.identity = .ok event.identity
  displayName : event.displayName = r.displayName
  object : Option.Rel (fun v p => Payload.encodeFor ctx.schema v = .ok p) (ctx.requested r) event.object
  diagnostics : event.diagnostics = wire r.diagnostics

theorem encoded_eq_ok {what : String} {e : Except ProviderError α} {a : α} : encoded what e = .ok a ↔ e = .ok a := by
  cases e <;> simp [encoded]

theorem encoded_eq_error {what : String} {e : Except ProviderError α} {ds : List Diagnostic}
    (h : encoded what e = .error ds) : ∃ d, ds = [d] ∧ d.isError = true := by
  cases e with
  | ok a    => cases h
  | error e =>
    cases h
    exact ⟨_, rfl, rfl⟩

def encodedObject (ctx : ListContext) (r : ListResult) : Except (List Diagnostic) (Option Payload) :=
  match ctx.requested r with
  | none   => .ok none
  | some v => (encoded "List Result Resource Object" (Payload.encodeFor ctx.schema v)).map some

theorem listEvent_eq (ctx : ListContext) (r : ListResult) : listEvent ctx r = (do
    let identity ← encoded "List Result Identity" (IdentityPayload.encodeFor ctx.identitySchema r.identity)
    let object ← encodedObject ctx r
    return ⟨identity, r.displayName, object, wire r.diagnostics⟩) := by
  unfold listEvent encodedObject ListContext.requested
  cases r.object with
  | none   => cases ctx.includeObject <;> rfl
  | some v => cases ctx.includeObject <;> rfl

theorem encodedObject_eq_ok {ctx : ListContext} {r : ListResult} {object : Option Payload} :
    encodedObject ctx r = .ok object ↔
      Option.Rel (fun v p => Payload.encodeFor ctx.schema v = .ok p) (ctx.requested r) object := by
  unfold encodedObject
  cases ctx.requested r with
  | none   => cases object <;> simp
  | some v => cases hp : Payload.encodeFor ctx.schema v <;> cases object <;> simp [encoded, Except.map, hp]

theorem encodedObject_eq_error {ctx : ListContext} {r : ListResult} {ds : List Diagnostic}
    (h : encodedObject ctx r = .error ds) : ∃ d, ds = [d] ∧ d.isError = true := by
  unfold encodedObject at h
  split at h
  · cases h
  · rename_i v _
    cases hp : encoded "List Result Resource Object" (Payload.encodeFor ctx.schema v) with
    | ok p     => rw [hp] at h; cases h
    | error es =>
      rw [hp] at h
      cases h
      exact encoded_eq_error hp

theorem listEvent_eq_ok {ctx : ListContext} {r : ListResult} {event : Wire.ListEvent} :
    listEvent ctx r = .ok event ↔ Encodes ctx r event := by
  rw [listEvent_eq]
  constructor
  · intro h
    cases hi : encoded "List Result Identity" (IdentityPayload.encodeFor ctx.identitySchema r.identity) with
    | error ds => rw [hi] at h; cases h
    | ok identity =>
      cases ho : encodedObject ctx r with
      | error ds  => rw [hi, ho] at h; cases h
      | ok object =>
        rw [hi, ho] at h
        cases h
        exact ⟨encoded_eq_ok.1 hi, rfl, encodedObject_eq_ok.1 ho, rfl⟩
  · intro h
    obtain ⟨identity, displayName, object, diagnostics⟩ := event
    obtain ⟨hi, hname, ho, hds⟩ := h
    dsimp only at hi hname ho hds
    subst hname hds
    rw [encoded_eq_ok.2 hi, encodedObject_eq_ok.2 ho]
    rfl

/-- A result that cannot be encoded is reported by one error. -/
theorem listEvent_eq_error {ctx : ListContext} {r : ListResult} {ds : List Diagnostic}
    (h : listEvent ctx r = .error ds) : (∀ event, ¬ Encodes ctx r event) ∧ ∃ d, ds = [d] ∧ d.isError = true := by
  constructor
  · intro event hevent
    rw [listEvent_eq_ok.2 hevent] at h
    cases h
  · rw [listEvent_eq] at h
    cases hi : encoded "List Result Identity" (IdentityPayload.encodeFor ctx.identitySchema r.identity) with
    | error es =>
      rw [hi] at h
      cases h
      exact encoded_eq_error hi
    | ok identity =>
      cases ho : encodedObject ctx r with
      | error es  =>
        rw [hi, ho] at h
        cases h
        exact encodedObject_eq_error ho
      | ok object => rw [hi, ho] at h; cases h

/-! ## Recording -/

/-- The sink over a state with a log, on which it notes each event and its answer. -/
def Sink.recorded (emit : Sink τ) : Sink (τ × List (Wire.ListEvent × Bool)) := fun event t =>
  (((emit event).run t.1).1, ((emit event).run t.1).2, t.2 ++ [(event, ((emit event).run t.1).1)])

theorem Sink.run_recorded {emit : Sink τ} {event : Wire.ListEvent} {answer : Bool} {t t' : τ}
    (h : (emit event).run t = (answer, t')) (log : List (Wire.ListEvent × Bool)) :
    (emit.recorded event).run (t, log) = (answer, t', log ++ [(event, answer)]) := by
  show (((emit event).run t).1, ((emit event).run t).2, log ++ [(event, ((emit event).run t).1)]) = _
  rw [h]

/-- The delivery to a sink with a log, without the log. -/
def Delivery.unlogged (d : Delivery (τ × β)) : Delivery τ := ⟨d.sink.1, d.count, d.done, d.failure⟩

theorem deliver_recorded (ctx : ListContext) (emit : Sink τ) (d : Delivery (τ × List (Wire.ListEvent × Bool)))
    (r : ListResult) : deliver ctx emit d.unlogged r =
      ((deliver ctx emit.recorded d r).1, (deliver ctx emit.recorded d r).2.unlogged) := by
  obtain ⟨sink, count, done, failure⟩ := d
  unfold deliver Delivery.unlogged
  cases done with
  | true  => rfl
  | false =>
    cases listEvent ctx r with
    | error ds => rfl
    | ok event => rfl

theorem runListing_recorded (ctx : ListContext) (emit : Sink τ) :
    ∀ (listing : Listing σ) (d : Delivery (τ × List (Wire.ListEvent × Bool))),
      runListing ctx emit listing d.unlogged =
        ((runListing ctx emit.recorded listing d).1, (runListing ctx emit.recorded listing d).2.unlogged)
  | .finish _, _      => rfl
  | .push r resume, d => by
    rw [runListing, runListing, deliver_recorded]
    exact runListing_recorded ctx emit (resume _) _

/-- The end of a listing: a failure is one event more. -/
def closeListing (emit : Sink τ) (x : σ × Delivery τ) : σ × τ :=
  match x.2.failure with
  | some ds => (x.1, ((emit { diagnostics := wire ds }).run x.2.sink).2)
  | none    => (x.1, x.2.sink)

theorem listInto_eq (ctx : ListContext) (emit : Sink τ) (sink : τ) (listing : Listing σ) :
    listInto ctx emit sink listing = closeListing emit (runListing ctx emit listing { sink }) := rfl

/-- **Recording changes nothing but the log.** -/
theorem listResource_recorded (server : Server σ) (emit : Sink τ) (req : Wire.ListRequest) (s : σ) (t : τ)
    (log : List (Wire.ListEvent × Bool)) :
    ∃ log', server.listResource emit.recorded req s (t, log) =
      ((server.listResource emit req s t).1, (server.listResource emit req s t).2, log') := by
  cases hstart : exec (startListing server req) s with
  | mk ending s' =>
    cases ending with
    | error ds =>
      rw [listResource_of_error hstart, listResource_of_error hstart]
      exact ⟨_, rfl⟩
    | ok x =>
      obtain ⟨listing, ctx⟩ := x
      rw [listResource_of_ok hstart, listResource_of_ok hstart, listInto_eq, listInto_eq]
      have hrun := runListing_recorded ctx emit (listing s') { sink := (t, log) }
      have hunlogged : ({ sink := (t, log) } : Delivery (τ × List (Wire.ListEvent × Bool))).unlogged = { sink := t } :=
        rfl
      rw [hunlogged] at hrun
      rw [hrun]
      unfold closeListing Delivery.unlogged
      cases (runListing ctx emit.recorded (listing s') { sink := (t, log) }).2.failure with
      | none    => exact ⟨_, rfl⟩
      | some ds => exact ⟨_, rfl⟩

/-! ## Streaming

`Streams` follows the listing: what is pushed, with what the implementation is told, beside what the sink gets, with what
it answers.  `room` is what is left of a positive limit; one that is not positive never comes to 1. -/

inductive Streams (ctx : ListContext) : Int → List (ListResult × Bool) → List (Wire.ListEvent × Bool) → Prop
  | ended (room : Int) : Streams ctx room [] []
  | unfit {room : Int} {r : ListResult} {rest : List (ListResult × Bool)} {d : Diagnostic} {answer : Bool} :
    (∀ event, ¬ Encodes ctx r event) → d.isError = true → (∀ p ∈ rest, p.2 = false) →
    Streams ctx room ((r, false) :: rest) [({ diagnostics := [d.toWire] }, answer)]
  | last {room : Int} {r : ListResult} {rest : List (ListResult × Bool)} {event : Wire.ListEvent} {answer : Bool} :
    Encodes ctx r event → answer = false ∨ room = 1 → (∀ p ∈ rest, p.2 = false) →
    Streams ctx room ((r, false) :: rest) [(event, answer)]
  | next {room : Int} {r : ListResult} {rest : List (ListResult × Bool)} {event : Wire.ListEvent}
    {log : List (Wire.ListEvent × Bool)} :
    Encodes ctx r event → room ≠ 1 → Streams ctx (room - 1) rest log →
    Streams ctx room ((r, true) :: rest) ((event, true) :: log)

/-- Once it is over, a delivery takes nothing more. -/
theorem runListing_of_done (ctx : ListContext) (emit : Sink τ) {d : Delivery τ} (hdone : d.done = true) :
    ∀ listing : Listing σ, ∃ pushed s, listing.Pushes pushed s ∧ (∀ p ∈ pushed, p.2 = false) ∧
      runListing ctx emit listing d = (s, d)
  | .finish s       => ⟨[], s, .finish s, List.forall_mem_nil _, rfl⟩
  | .push r resume => by
    obtain ⟨pushed, s, hpushes, htold, hrun⟩ := runListing_of_done ctx emit hdone (resume false)
    refine ⟨(r, false) :: pushed, s, .push hpushes, List.forall_mem_cons.2 ⟨rfl, htold⟩, ?_⟩
    have hdeliver : deliver ctx emit d r = (false, d) := by rw [deliver, if_pos hdone]
    rw [runListing, hdeliver]
    exact hrun

/-- What delivering a result comes to, as long as the delivery is not over. -/
theorem deliver_of_not_done (ctx : ListContext) (emit : Sink τ) (sink : τ) (count : Nat) (r : ListResult) :
    deliver ctx emit ⟨sink, count, false, none⟩ r = match listEvent ctx r with
      | .error ds => (false, ⟨sink, count, true, some ds⟩)
      | .ok event =>
        let (answer, after) := (emit event).run sink
        if answer = false ∨ (0 < ctx.limit ∧ ctx.limit ≤ (count + 1 : Nat)) then
          (false, ⟨after, count + 1, true, none⟩)
        else (true, ⟨after, count + 1, false, none⟩) := by
  unfold deliver
  rw [if_neg Bool.false_ne_true]
  cases listEvent ctx r with
  | error ds => rfl
  | ok event =>
    dsimp only
    generalize (emit event).run sink = answered
    obtain ⟨answer, after⟩ := answered
    dsimp only
    by_cases hlimit : 0 < ctx.limit ∧ ctx.limit ≤ (count + 1 : Nat)
    · rw [if_pos (.inr hlimit), decide_eq_true hlimit, Bool.or_true]
      rfl
    · rw [decide_eq_false hlimit, Bool.or_false]
      cases answer with
      | false => rfl
      | true  => rw [if_neg (by simpa using hlimit)]; rfl

/-- **What is pushed and what the sink gets go together**, from any delivery that is not over; such a delivery has come
to fewer events than a positive limit allows. -/
theorem runListing_streams (ctx : ListContext) (emit : Sink τ) : ∀ (listing : Listing σ) (t : τ)
    (log : List (Wire.ListEvent × Bool)) (count : Nat), (0 < ctx.limit → count < ctx.limit) →
    ∃ pushed events s t', listing.Pushes pushed s ∧ Streams ctx (ctx.limit - count) pushed events ∧
      closeListing emit.recorded (runListing ctx emit.recorded listing ⟨(t, log), count, false, none⟩) =
        (s, t', log ++ events)
  | .finish s, t, log, count, _ =>
    ⟨[], [], s, t, .finish s, .ended _, by rw [List.append_nil]; rfl⟩
  | .push r resume, t, log, count, hroom => by
    rw [runListing, deliver_of_not_done]
    cases hevent : listEvent ctx r with
    | error ds =>
      obtain ⟨hunfit, d, rfl, hd⟩ := listEvent_eq_error hevent
      obtain ⟨pushed, s, hpushes, htold, hrun⟩ :=
        runListing_of_done ctx emit.recorded (d := ⟨(t, log), count, true, some [d]⟩) rfl (resume false)
      dsimp only
      rw [hrun]
      exact ⟨_, _, s, _, .push hpushes, .unfit hunfit hd htold, rfl⟩
    | ok event =>
      have hencodes := listEvent_eq_ok.1 hevent
      dsimp only
      cases hanswer : (emit event).run t with
      | mk answer t' =>
        rw [Sink.run_recorded hanswer]
        dsimp only
        by_cases hover : answer = false ∨ (0 < ctx.limit ∧ ctx.limit ≤ (count + 1 : Nat))
        · -- the delivery is over, so whatever is pushed from here on is told to stop
          rw [if_pos hover]
          obtain ⟨pushed, s, hpushes, htold, hrun⟩ := runListing_of_done ctx emit.recorded
            (d := ⟨(t', log ++ [(event, answer)]), count + 1, true, none⟩) rfl (resume false)
          have hlast : answer = false ∨ ctx.limit - count = 1 := hover.imp_right fun hlimit => by
            have hfree := hroom hlimit.1
            omega
          dsimp only
          rw [hrun]
          exact ⟨_, _, s, t', .push hpushes, .last hencodes hlast htold, rfl⟩
        · rw [if_neg hover]
          obtain ⟨hanswered, hlimit⟩ := not_or.1 hover
          obtain rfl : answer = true := by simpa using hanswered
          obtain ⟨pushed, events, s, t'', hpushes, hstreams, hrun⟩ :=
            runListing_streams ctx emit (resume true) t' (log ++ [(event, true)]) (count + 1) (by omega)
          have hmore : ctx.limit - count ≠ 1 := by omega
          have hrest : Streams ctx (ctx.limit - count - 1) pushed events := by
            have hone : ctx.limit - count - 1 = ctx.limit - (count + 1 : Nat) := by omega
            rw [hone]
            exact hstreams
          refine ⟨_, _, s, t'', .push hpushes, .next hencodes hmore hrest, ?_⟩
          rw [hrun, List.append_assoc]
          rfl

end Server

end ProviderProtocol
