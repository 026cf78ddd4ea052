import EchonetBridge.Main.Blocking

/-!
# Main/Flush — what has been handled when the loop is left

The channel loses nothing: the events sent are the events handled, followed by those in flight.
The loop is left with the first `Shutdown` it handles, so every event sent before that one has been
handled by then, the announcement of `startup` among them (`flushed_at_shutdown`).
-/

namespace Echonet

/-- The events that the loop passes on to the network. -/
def Event.isAnnounce : Event → Bool
  | announce _ _ => true
  | _ => false

namespace Bridge

/-- The announcement that `startup` sends. -/
def startupAnnounce : Event :=
  .announce Middleware.new.profileEoj (EOJ.fromGroupclassInstance classProfileNodeProfile 0x01)

theorem startup_eq : Middleware.new.startup = [.startup, startupAnnounce] := rfl

/-! ## The account of the events -/

/-- Where the events of a run are.  Signals only ever add a `Shutdown` behind what `startup` sends,
and the loop goes on for as long as it has handled none. -/
structure Accounted (b : Bridge) : Prop where
  fifo : b.sent = b.handled ++ b.channel.queue
  sends : ∃ n, b.sent ++ b.pending = Middleware.new.startup ++ List.replicate n .shutdown
  announced : b.network = b.handled.filter Event.isAnnounce
  in_loop : (∀ result, b.phase ≠ .left result) → .shutdown ∉ b.handled
  left : ∀ result, b.phase = .left result → result = .ok () ∧
    ∃ before, b.handled = before ++ [.shutdown] ∧ .shutdown ∉ before

theorem accounted_start : Accounted start where
  fifo := rfl
  sends := ⟨0, rfl⟩
  announced := rfl
  in_loop _ := List.not_mem_nil
  left _ h := nomatch h

theorem ne_left_of_middleware {b : Bridge} {call : MiddlewareCall} {rest : List Event}
    (h : b.phase = .middleware call rest) (result : Outcome ConnectorError Unit) :
    b.phase ≠ .left result := by
  rw [h]
  nofun

theorem ne_left_of_select {b : Bridge} (h : b.phase = .select)
    (result : Outcome ConnectorError Unit) : b.phase ≠ .left result := by
  rw [h]
  nofun

theorem ne_left_of_afterSend {b : Bridge} {call : MiddlewareCall} {rest : List Event}
    (h : b.phase = .afterSend call rest) (result : Outcome ConnectorError Unit) :
    b.phase ≠ .left result := by
  rw [h]
  cases rest <;> nofun

/-- The account of a task that is still in the loop. -/
theorem Accounted.of_in_loop {b : Bridge} (hleft : ∀ result, b.phase ≠ .left result)
    (hfifo : b.sent = b.handled ++ b.channel.queue)
    (hsends : ∃ n, b.sent ++ b.pending = Middleware.new.startup ++ List.replicate n .shutdown)
    (hannounced : b.network = b.handled.filter Event.isAnnounce)
    (hhandled : .shutdown ∉ b.handled) : Accounted b :=
  ⟨hfifo, hsends, hannounced, fun _ => hhandled, fun result h => absurd h (hleft result)⟩

/-- Handling the oldest event keeps the account. -/
theorem accounted_receive {b : Bridge} (hb : Accounted b) (hphase : b.phase = .select)
    {event : Event} {channel : Channel 16 Event}
    (hqueue : b.channel.queue = event :: channel.queue) :
    Accounted (handle { b with channel := channel, handled := b.handled ++ [event] } event) := by
  have hfifo : b.sent = (b.handled ++ [event]) ++ channel.queue := by
    rw [hb.fifo, hqueue, List.append_assoc, List.singleton_append]
  have hannounced : b.network ++ [event].filter Event.isAnnounce
      = (b.handled ++ [event]).filter Event.isAnnounce := by
    rw [List.filter_append, hb.announced]
  have hhandled : ∀ e, Event.shutdown ≠ e → .shutdown ∉ b.handled ++ [e] := fun e he hmem => by
    rcases List.mem_append.mp hmem with hmem | hmem
    · exact hb.in_loop (ne_left_of_select hphase) hmem
    · exact he (List.mem_singleton.mp hmem)
  obtain ⟨-, hpending, -⟩ := handle_cases
    (b := { b with channel := channel, handled := b.handled ++ [event] }) hphase event
  obtain ⟨n, hsends⟩ := hb.sends
  rw [pending_of_select hphase] at hsends
  cases event with
  | startup =>
    exact .of_in_loop (ne_left_of_select hphase) hfifo ⟨n, by rw [hpending]; exact hsends⟩
      ((List.append_nil _).symm.trans hannounced) (hhandled _ nofun)
  | shutdown =>
    refine ⟨hfifo, ⟨n, by rw [hpending]; exact hsends⟩, (List.append_nil _).symm.trans hannounced,
      fun h => absurd rfl (h (.ok ())), fun result h => ?_⟩
    cases h
    exact ⟨rfl, b.handled, rfl, hb.in_loop (ne_left_of_select hphase)⟩
  | announce seoj deoj =>
    exact .of_in_loop (fun _ => nofun) hfifo ⟨n, by rw [hpending]; exact hsends⟩ hannounced
      (hhandled _ nofun)

/-- **One step keeps the account.** -/
theorem accounted_step {b b' : Bridge} {label : Label} (hb : Accounted b)
    (h : b.step label = some b') : Accounted b' := by
  cases step_cases h with
  | @send call event rest channel hphase hroom hqueue =>
    obtain ⟨n, hsends⟩ := hb.sends
    refine .of_in_loop (ne_left_of_afterSend rfl) ?_ ⟨n, ?_⟩ hb.announced
      (hb.in_loop (ne_left_of_middleware hphase))
    · dsimp only
      rw [hqueue, hb.fifo, List.append_assoc]
    · rw [pending_of_phase hphase] at hsends
      rw [pending_of_afterSend rfl, ← hsends, List.append_assoc, List.singleton_append]
  | signal signal hphase =>
    obtain ⟨n, hsends⟩ := hb.sends
    refine .of_in_loop (ne_left_of_middleware rfl) hb.fifo ⟨n + 1, ?_⟩ hb.announced
      (hb.in_loop (ne_left_of_select hphase))
    rw [pending_of_select hphase, List.append_nil] at hsends
    rw [pending_of_phase rfl, List.replicate_succ', ← List.append_assoc, ← hsends]
  | tick hphase => exact hb
  | @receive event channel hphase hqueue => exact accounted_receive hb hphase hqueue

/-- The account holds in every state that a run reaches. -/
theorem accounted_run {labels : List Label} {b : Bridge}
    (h : Machine.exec step start labels = some b) : Accounted b :=
  Machine.exec_history (fun _ => Accounted) accounted_start (fun _ _ _ _ _ => accounted_step)
    labels h

/-! ## Leaving the loop -/

/-- What is sent before the first `Shutdown` is what `startup` sends. -/
theorem before_shutdown {n : ℕ} {before after : List Event}
    (h : Middleware.new.startup ++ List.replicate n .shutdown = before ++ .shutdown :: after)
    (hbefore : .shutdown ∉ before) : before = Middleware.new.startup := by
  rw [startup_eq] at h ⊢
  obtain _ | ⟨first, _ | ⟨second, rest⟩⟩ := before
  · exact nomatch (List.cons.inj h).1
  · exact nomatch (List.cons.inj (List.cons.inj h).2).1
  · obtain ⟨rfl, htail⟩ := List.cons.inj h
    obtain ⟨rfl, hreplicate⟩ := List.cons.inj htail
    have hrest : List.replicate n Event.shutdown = rest ++ .shutdown :: after := hreplicate
    -- What follows is made of `Shutdown`s, so none of it comes before the first.
    have hnil : rest = [] := List.eq_nil_iff_forall_not_mem.mpr fun event hevent => by
      have hmem : event ∈ List.replicate n Event.shutdown := by
        rw [hrest]
        exact List.mem_append_left _ hevent
      rw [List.eq_of_mem_replicate hmem] at hevent
      exact hbefore (List.mem_cons_of_mem _ (List.mem_cons_of_mem _ hevent))
    rw [hnil]

/-- **The queue is flushed up to shutdown.**  In every state that a run reaches the events handled
are a prefix of the events sent.  The loop has been left exactly if a `Shutdown` has been handled;
it is the first that was sent, every event sent before it has been handled once, and the network has
been passed the announcement of `startup` once. -/
theorem flushed_at_shutdown {labels : List Label} {b : Bridge}
    (h : Machine.exec step start labels = some b) :
    b.handled <+: b.sent ∧
    ((∃ result, b.phase = .left result) ↔ .shutdown ∈ b.handled) ∧
    ∀ result, b.phase = .left result → result = .ok () ∧ ∃ before after,
      b.sent = before ++ .shutdown :: after ∧ .shutdown ∉ before ∧
      b.handled = before ++ [.shutdown] ∧ startupAnnounce ∈ before ∧
      b.network = [startupAnnounce] := by
  have hb := accounted_run h
  refine ⟨⟨_, hb.fifo.symm⟩, ⟨fun ⟨result, hleft⟩ => ?_, fun hmem => ?_⟩, fun result hleft => ?_⟩
  · obtain ⟨-, before, hhandled, -⟩ := hb.left result hleft
    rw [hhandled]
    exact List.mem_append_right _ List.mem_cons_self
  · by_contra hnone
    exact hb.in_loop (not_exists.mp hnone) hmem
  · obtain ⟨hok, before, hhandled, hbefore⟩ := hb.left result hleft
    have hsent : b.sent = before ++ .shutdown :: b.channel.queue := by
      rw [hb.fifo, hhandled, List.append_assoc, List.singleton_append]
    have hpending : b.pending = [] := by rw [pending, hleft]
    obtain ⟨n, hsends⟩ := hb.sends
    rw [hpending, List.append_nil, hsent] at hsends
    have hstartup := before_shutdown hsends.symm hbefore
    refine ⟨hok, before, b.channel.queue, hsent, hbefore, hhandled, ?_, ?_⟩
    · rw [hstartup]
      exact List.mem_cons_of_mem _ List.mem_cons_self
    · rw [hb.announced, hhandled, hstartup]
      rfl

theorem flushed_at_shutdown_twice :
    ∃ b, Machine.exec step start [.send, .send, .signal .interrupt, .send, .tick,
        .signal .terminate, .send, .receive, .receive, .receive] = some b ∧
      b.network = [startupAnnounce] := by
  obtain ⟨b, hrun, hleft⟩ : ∃ b, Machine.exec step start [.send, .send, .signal .interrupt, .send,
      .tick, .signal .terminate, .send, .receive, .receive, .receive] = some b ∧
      b.phase = .left (.ok ()) := ⟨_, rfl, rfl⟩
  obtain ⟨-, _, _, -, -, -, -, hnetwork⟩ := (flushed_at_shutdown hrun).2.2 _ hleft
  exact ⟨b, hrun, hnetwork⟩

end Bridge

end Echonet
