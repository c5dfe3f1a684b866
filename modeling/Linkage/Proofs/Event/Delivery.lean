import Mathlib.Logic.Relation
import Linkage.Command.Run

/-!
# Each message is handled once and in order

A command and a receiver take turns in any order.  What the command sends is at any time handled,
waiting or still to be sent, and nothing is in two of these places.

* `Delivery.Step`        one step of the command or of the receiver;
* `Delivery.Accounts`    the messages of a command are those handled, then those that wait, then those
                         that are left, and its result is still to come;
* `Step.accounts`, `accounts_of_steps`   each step keeps this, and so does a run of any length;
* `exists_steps`, `exists_turns`   turns are a run that comes to the result, and any run is made of
                         turns;
* `delivered_in_order`   what this means for a delivery.
-/

namespace Linkage

section
variable {μ ρ σ : Type}

/-- Where a delivery stands. -/
structure Delivery (μ ρ σ : Type) where
  /-- what is left of the command -/
  work : Work μ ρ
  channel : Channel μ
  /-- what the messages handled so far have made -/
  state : σ

/-- The delivery of a command that has not begun. -/
def Work.delivery (w : Work μ ρ) (s : σ) : Delivery μ ρ σ := ⟨w, .fresh, s⟩

namespace Delivery

/-- One step of a delivery. -/
inductive Step (handle : σ → μ → σ) : Delivery μ ρ σ → Delivery μ ρ σ → Prop
  /-- the command sends -/
  | send (ms : List μ) (next : Work μ ρ) (c : Channel μ) (s : σ) :
      Step handle ⟨.send ms next, c, s⟩ ⟨next, { c with waiting := c.waiting ++ ms }, s⟩
  /-- the receiver takes the message that has waited longest -/
  | receive (w : Work μ ρ) (m : μ) (rest : List μ) (s : σ) :
      Step handle ⟨w, ⟨m :: rest, true⟩, s⟩ ⟨w, ⟨rest, true⟩, handle s m⟩
  /-- the receiver finds the channel closed, since nothing waits and nothing more will be sent -/
  | close (w : Work μ ρ) (listening : Bool) (s : σ) (h : w.messages = []) :
      Step handle ⟨w, ⟨[], listening⟩, s⟩ ⟨w, ⟨[], false⟩, s⟩

/-- Steps in any number, by the command and the receiver in any order. -/
abbrev Steps (handle : σ → μ → σ) : Delivery μ ρ σ → Delivery μ ρ σ → Prop :=
  Relation.ReflTransGen (Step handle)

/-- Of the messages of the command `w`, first some were handled from the state `s` on, the next ones
wait, and the last ones are still to be sent; the result of `w` is still to come. -/
def Accounts (handle : σ → μ → σ) (w : Work μ ρ) (s : σ) (d : Delivery μ ρ σ) : Prop :=
  ∃ handled, w.messages = handled ++ d.channel.waiting ++ d.work.messages ∧
    d.state = handled.foldl handle s ∧ d.work.result = w.result

variable {handle : σ → μ → σ} {w : Work μ ρ} {s : σ} {d e : Delivery μ ρ σ}

theorem accounts_delivery (handle : σ → μ → σ) (w : Work μ ρ) (s : σ) :
    Accounts handle w s (w.delivery s) := ⟨[], rfl, rfl, rfl⟩

theorem Step.accounts (h : Step handle d e) (hd : Accounts handle w s d) :
    Accounts handle w s e := by
  obtain ⟨handled, hmessages, hstate, hresult⟩ := hd
  cases h with
  | send ms next c t =>
    refine ⟨handled, ?_, hstate, hresult⟩
    have hleft : (Work.send ms next).messages = ms ++ next.messages := rfl
    rw [hmessages, hleft]
    simp only [List.append_assoc]
  | receive v m rest t =>
    refine ⟨handled ++ [m], ?_, ?_, hresult⟩
    · rw [hmessages]
      show handled ++ m :: rest ++ v.messages = handled ++ [m] ++ rest ++ v.messages
      rw [List.append_assoc handled [m] rest, List.singleton_append]
    · rw [List.foldl_append, ← hstate]
      rfl
  | close v listening t hnone => exact ⟨handled, hmessages, hstate, hresult⟩

theorem accounts_of_steps (h : Steps handle (w.delivery s) d) : Accounts handle w s d := by
  induction h with
  | refl => exact accounts_delivery handle w s
  | tail _ hstep ih => exact hstep.accounts ih

/-! ## turns and steps -/

/-- When the command has its result, what waits is handled and the delivery ends. -/
def Returns (handle : σ → μ → σ) (d : Delivery μ ρ σ) (x : σ × ρ) : Prop :=
  d.work = .done x.2 ∧ d.channel.waiting.foldl handle d.state = x.1

/-- a command that has its result has sent all its messages, so all are handled when it returns -/
theorem Accounts.eq_of_returns (h : Accounts handle w s d) {x : σ × ρ} (hx : Returns handle d x) :
    x = (w.messages.foldl handle s, w.result) := by
  obtain ⟨handled, hmessages, hstate, hresult⟩ := h
  obtain ⟨hwork, hdrained⟩ := hx
  rw [hwork] at hmessages hresult
  have hleft : (Work.done x.2 : Work μ ρ).messages = [] := rfl
  have hcame : (Work.done x.2 : Work μ ρ).result = x.2 := rfl
  refine Prod.ext ?_ ?_
  · rw [hmessages, hleft, List.append_nil, List.foldl_append, ← hstate]
    exact hdrained.symm
  · rw [← hresult]
    exact hcame.symm

/-- the command alone takes steps up to its result -/
theorem exists_steps_finish (handle : σ → μ → σ) (w : Work μ ρ) (c : Channel μ) (s : σ) :
    ∃ d, Steps handle ⟨w, c, s⟩ d ∧ Returns handle d (finish handle w c.waiting s) := by
  induction w generalizing c with
  | done r => exact ⟨_, .refl, rfl, rfl⟩
  | send ms next ih =>
    obtain ⟨d, hsteps, hreturns⟩ := ih { c with waiting := c.waiting ++ ms }
    exact ⟨d, .head (.send ms next c s) hsteps, hreturns⟩

/-- A delivery in turns takes steps until it returns. -/
theorem exists_steps (handle : σ → μ → σ) (turns : List Turn) (w : Work μ ρ) (c : Channel μ)
    (s : σ) : ∃ d, Steps handle ⟨w, c, s⟩ d ∧ Returns handle d (deliver handle turns w c s) := by
  induction turns generalizing w c s with
  | nil => exact exists_steps_finish handle w c s
  | cons turn turns ih =>
    cases turn with
    | command =>
      cases w with
      | done r => exact ⟨_, .refl, rfl, rfl⟩
      | send ms next =>
        obtain ⟨d, hsteps, hreturns⟩ := ih next { c with waiting := c.waiting ++ ms } s
        exact ⟨d, .head (.send ms next c s) hsteps, hreturns⟩
    | receiver =>
      -- only a receiver that listens takes a message, and only if there is one
      obtain ⟨waiting, listening⟩ := c
      cases listening with
      | false => exact ih w ⟨waiting, false⟩ s
      | true =>
        cases waiting with
        | nil => exact ih w ⟨[], true⟩ s
        | cons m rest =>
          obtain ⟨d, hsteps, hreturns⟩ := ih w ⟨rest, true⟩ (handle s m)
          exact ⟨d, .head (.receive w m rest s) hsteps, hreturns⟩
    | closed =>
      unfold deliver
      split
      · rename_i h
        rw [Bool.and_eq_true, List.isEmpty_iff, List.isEmpty_iff] at h
        obtain ⟨waiting, listening⟩ := c
        obtain ⟨hwaiting, hleft⟩ := h
        cases hwaiting
        obtain ⟨d, hsteps, hreturns⟩ := ih w ⟨[], false⟩ s
        exact ⟨d, .head (.close w listening s hleft) hsteps, hreturns⟩
      · exact ih w c s

/-- a step is a turn -/
theorem Step.exists_turn (h : Step handle d e) : ∃ turn, ∀ later,
    deliver handle (turn :: later) d.work d.channel d.state
      = deliver handle later e.work e.channel e.state := by
  cases h with
  | send ms next c t => exact ⟨.command, fun _ => rfl⟩
  | receive v m rest t => exact ⟨.receiver, fun _ => rfl⟩
  | close v listening t hnone =>
    refine ⟨.closed, fun later => ?_⟩
    have hend : (([] : List μ).isEmpty && v.messages.isEmpty) = true := by
      rw [hnone]
      rfl
    show (if _ then _ else _) = _
    rw [if_pos hend]

/-- Steps in any order are turns of a delivery. -/
theorem exists_turns (h : Steps handle d e) : ∃ turns, ∀ later,
    deliver handle (turns ++ later) d.work d.channel d.state
      = deliver handle later e.work e.channel e.state := by
  induction h using Relation.ReflTransGen.head_induction_on with
  | refl => exact ⟨[], fun _ => rfl⟩
  | head hstep _ ih =>
    obtain ⟨turn, hturn⟩ := hstep.exists_turn
    obtain ⟨turns, hturns⟩ := ih
    refine ⟨turn :: turns, fun later => ?_⟩
    rw [List.cons_append, hturn, hturns]

end Delivery

/-- whatever the turns, all messages are handled in the order in which they are sent -/
theorem deliver_fresh (handle : σ → μ → σ) (turns : List Turn) (w : Work μ ρ) (s : σ) :
    deliver handle turns w .fresh s = (w.messages.foldl handle s, w.result) := by
  obtain ⟨d, hsteps, hreturns⟩ := Delivery.exists_steps handle turns w .fresh s
  exact (Delivery.accounts_of_steps hsteps).eq_of_returns hreturns

end

/-! ## the handler of a run -/

theorem Work.messages_ofMessages {μ ρ : Type} (r : ρ) (ms : List μ) :
    (ofMessages r ms).messages = ms ∧ (ofMessages r ms).result = r := by
  induction ms with
  | nil => exact ⟨rfl, rfl⟩
  | cons m ms ih => exact ⟨congrArg (m :: ·) ih.1, ih.2⟩

/-- a handler writes a record for each message, and counts each event -/
theorem Handler.foldl_handle (h : Handler) (ms : List Message) : ms.foldl handle h =
    ⟨h.records ++ ms.map fun m => m.event.record m.envelope,
      h.tally.observeAll (ms.map Message.event)⟩ := by
  induction ms generalizing h with
  | nil => simp [Tally.observeAll]
  | cons m ms ih =>
    rw [List.foldl_cons, ih]
    simp [handle, Tally.observeAll]

/-- Whatever the order in which a command and a receiver take their turns, each message that the
command sends is handled exactly once, in the order in which they were sent, and the result is that of
the command.  At any time the messages are those handled, those that wait and those still to be sent,
in this order; the turns reach whatever steps of the two can reach.  The handler of a run has a record
of each event, and has counted each of them. -/
theorem delivered_in_order {μ ρ : Type} (w : Work μ ρ) :
    (∀ turns, deliver (fun handled m => handled ++ [m]) turns w .fresh [] = (w.messages, w.result)) ∧
    (∀ (σ : Type) (handle : σ → μ → σ) (s : σ),
      (∀ turns, deliver handle turns w .fresh s = (w.messages.foldl handle s, w.result)) ∧
      ∀ d, Delivery.Steps handle (w.delivery s) d →
        Delivery.Accounts handle w s d ∧
        (∀ x, d.Returns handle x → x = (w.messages.foldl handle s, w.result)) ∧
        ∃ turns, ∀ later, deliver handle (turns ++ later) w .fresh s
          = deliver handle later d.work d.channel d.state) ∧
    ∀ (x : Execution) (turns : List Turn), deliver Handler.handle turns x.work .fresh .start =
      (⟨x.events.map fun m => m.event.record m.envelope,
        Tally.zero.observeAll (x.events.map Message.event)⟩, x.result) := by
  refine ⟨fun turns => ?_, fun σ handle s => ⟨fun turns => deliver_fresh handle turns w s,
    fun d hd => ?_⟩, fun x turns => ?_⟩
  · have hconcat : ∀ ms handled : List μ,
        ms.foldl (fun handled m => handled ++ [m]) handled = handled ++ ms := by
      intro ms
      induction ms with
      | nil => exact fun handled => (List.append_nil _).symm
      | cons m ms ih =>
        intro handled
        rw [List.foldl_cons, ih, List.append_assoc, List.singleton_append]
    rw [deliver_fresh, hconcat, List.nil_append]
  · have haccounts := Delivery.accounts_of_steps hd
    exact ⟨haccounts, fun x hx => haccounts.eq_of_returns hx, Delivery.exists_turns hd⟩
  · obtain ⟨hmessages, hresult⟩ := Work.messages_ofMessages x.result x.events
    rw [deliver_fresh]
    show ((Work.ofMessages x.result x.events).messages.foldl _ _, _) = _
    rw [hmessages, Handler.foldl_handle]
    exact Prod.ext rfl hresult

end Linkage
