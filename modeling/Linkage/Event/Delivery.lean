import Linkage.Event.Log

/-!
# Events while a command runs

A command sends its events through a channel while it runs.  A receiver takes turns with it and
handles what it finds; what still waits when the command has its result is handled then.

* `Work`           what is left of a command;
* `Turn`           whose turn it is;
* `deliver`        the command and the receiver, one turn after the other;
* `Handler`        what a receiver wrote and counted.
-/

namespace Linkage

/-- What is left of a command: it sends messages, and at last it has a result. -/
inductive Work (μ ρ : Type) where
  | done (result : ρ)
  | send (messages : List μ) (next : Work μ ρ)

namespace Work

section
variable {μ ρ : Type}

/-- The messages that are still to be sent. -/
def messages : Work μ ρ → List μ
  | done _ => []
  | send ms next => ms ++ next.messages

/-- The result that is reached at last. -/
def result : Work μ ρ → ρ
  | done r => r
  | send _ next => next.result

/-- The command that sends the messages one by one. -/
def ofMessages (r : ρ) : List μ → Work μ ρ
  | [] => done r
  | m :: ms => send [m] (ofMessages r ms)

end

end Work

/-- Whose turn it is.  The receiver finds the channel closed only if nothing waits in it and nothing
more will be sent. -/
inductive Turn where
  | command
  | receiver
  | closed
  deriving DecidableEq

/-- What waits for the receiver, and whether it still listens. -/
structure Channel (μ : Type) where
  waiting : List μ
  listening : Bool

namespace Channel

/-- The channel through which nothing was sent yet. -/
def fresh {μ : Type} : Channel μ := ⟨[], true⟩

end Channel

section
variable {μ ρ σ : Type}

/-- The command up to its result, and then what waits. -/
def finish (handle : σ → μ → σ) : Work μ ρ → List μ → σ → σ × ρ
  | .done r, waiting, s => (waiting.foldl handle s, r)
  | .send ms next, waiting, s => finish handle next (waiting ++ ms) s

/-- The command and the receiver in turns; when no turn is left the command goes on alone. -/
def deliver (handle : σ → μ → σ) : List Turn → Work μ ρ → Channel μ → σ → σ × ρ
  | [], w, c, s => finish handle w c.waiting s
  | .command :: ts, w, c, s => match w with
    | .done r => (c.waiting.foldl handle s, r)
    | .send ms next => deliver handle ts next { c with waiting := c.waiting ++ ms } s
  | .receiver :: ts, w, c, s => match c.listening, c.waiting with
    | true, m :: rest => deliver handle ts w { c with waiting := rest } (handle s m)
    | _, _ => deliver handle ts w c s
  | .closed :: ts, w, c, s =>
    if c.waiting.isEmpty && w.messages.isEmpty then
      deliver handle ts w { c with listening := false } s
    else deliver handle ts w c s

end

/-- An event on its way, with what comes with it. -/
structure Message where
  envelope : Envelope
  event : Event
  deriving DecidableEq

/-- The message in which an event is sent. -/
def Event.message (e : Event) (correlation : Option String) : Message :=
  ⟨e.envelope correlation, e⟩

/-- What a receiver wrote and counted. -/
structure Handler where
  records : List LogRecord
  tally : Tally
  deriving DecidableEq

namespace Handler

def start : Handler := ⟨[], .zero⟩

def handle (h : Handler) (m : Message) : Handler where
  records := h.records ++ [m.event.record m.envelope]
  tally := h.tally.observe m.event

end Handler
end Linkage
