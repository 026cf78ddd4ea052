import EchonetBridge.Connectors.Network
import EchonetBridge.Foundations.Channel
import EchonetBridge.Foundations.Machine

/-!
# Main/Loop — the processing loop

`main` is one task.  It starts the middleware, and then waits at a `select!` for a signal, for the
announcement timer or for an event of its own channel.  The middleware sends on that channel from
within the task, so a send that has to wait keeps the task from receiving.
-/

namespace Echonet

inductive Signal where
  | interrupt
  | terminate
  deriving DecidableEq, Repr

/-- The calls of the middleware that send. -/
inductive MiddlewareCall where
  | startup
  | shutdown
  deriving DecidableEq, Repr

/-- Where the task is: in a call of the middleware, with the events it has yet to send, at the
`select!`, or out of the loop. -/
inductive Phase where
  | middleware (call : MiddlewareCall) (rest : List Event)
  | select
  | left (result : Outcome ConnectorError Unit)
  deriving DecidableEq

/-- A call returns once it has sent its last event. -/
def Phase.afterSend (call : MiddlewareCall) : List Event → Phase
  | [] => .select
  | event :: rest => .middleware call (event :: rest)

/-- The state of the task, with the events sent and handled so far, and those passed to
`Network.send`. -/
structure Bridge where
  phase : Phase
  channel : Channel 16 Event
  sent : List Event
  handled : List Event
  network : List Event

namespace Bridge

/-- The sockets are connected, and the middleware is about to be started. -/
def start : Bridge := ⟨.middleware .startup Middleware.new.startup, .empty, [], [], []⟩

/-- What the loop does with an event it has received. -/
def handle (b : Bridge) (event : Event) : Bridge :=
  match event with
  | .startup => b
  | .shutdown => { b with phase := .left (.ok ()) }
  | .announce _ _ =>
    { b with
      phase := match Network.send event with
        | .ok () => .select
        | result => .left result
      network := b.network ++ [event] }

/-- The steps of the task: a pending send completes, or `select!` picks a branch that is ready. -/
inductive Label where
  | send
  | signal (signal : Signal)
  | tick
  | receive
  deriving DecidableEq, Repr

/-- One step, if it is enabled. -/
def step (b : Bridge) : Label → Option Bridge
  | .send =>
    match b.phase with
    | .middleware call (event :: rest) =>
      (b.channel.trySend event).map fun channel =>
        { b with phase := .afterSend call rest, channel := channel, sent := b.sent ++ [event] }
    | _ => none
  | .signal _ =>
    match b.phase with
    | .select => some { b with phase := .middleware .shutdown Middleware.new.shutdown }
    | _ => none
  | .tick =>
    match b.phase with
    | .select => some b
    | _ => none
  | .receive =>
    match b.phase with
    | .select =>
      b.channel.tryRecv.map fun (event, channel) =>
        handle { b with channel := channel, handled := b.handled ++ [event] } event
    | _ => none

/-! ## What a step can do -/

/-- The steps that are enabled in a state, with the state they lead to. -/
inductive Steps (b : Bridge) : Label → Bridge → Prop
  | send {call : MiddlewareCall} {event : Event} {rest : List Event} {channel : Channel 16 Event}
      (hphase : b.phase = .middleware call (event :: rest)) (hroom : ¬ b.channel.IsFull)
      (hqueue : channel.queue = b.channel.queue ++ [event]) :
      Steps b .send
        { b with phase := .afterSend call rest, channel := channel, sent := b.sent ++ [event] }
  | signal (signal : Signal) (hphase : b.phase = .select) :
      Steps b (.signal signal) { b with phase := .middleware .shutdown [.shutdown] }
  | tick (hphase : b.phase = .select) : Steps b .tick b
  | receive {event : Event} {channel : Channel 16 Event} (hphase : b.phase = .select)
      (hqueue : b.channel.queue = event :: channel.queue) :
      Steps b .receive (handle { b with channel := channel, handled := b.handled ++ [event] } event)

theorem step_cases {b b' : Bridge} {label : Label} (h : b.step label = some b') :
    b.Steps label b' := by
  cases label with
  | send =>
    rw [step] at h
    split at h
    · next call event rest hphase =>
      rw [Option.map_eq_some_iff] at h
      obtain ⟨channel, hsend, rfl⟩ := h
      obtain ⟨hroom, hqueue⟩ := Channel.trySend_eq_some.mp hsend
      exact .send hphase hroom hqueue
    · exact nomatch h
  | signal signal =>
    rw [step] at h
    split at h
    · next hphase =>
      cases h
      exact .signal signal hphase
    · exact nomatch h
  | tick =>
    rw [step] at h
    split at h
    · next hphase =>
      cases h
      exact .tick hphase
    · exact nomatch h
  | receive =>
    rw [step] at h
    split at h
    · next hphase =>
      rw [Option.map_eq_some_iff] at h
      obtain ⟨⟨event, channel⟩, hrecv, rfl⟩ := h
      exact .receive hphase (Channel.tryRecv_eq_some.mp hrecv)
    · exact nomatch h

end Bridge

end Echonet
