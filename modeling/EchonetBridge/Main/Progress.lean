import EchonetBridge.Main.Flush

/-!
# Main/Progress — what the loop handles, and how it is left

The loop handles the two events of `startup` and one `Shutdown`, and no other (`handled_isPrefix`).
It cannot be left without a signal, and it can be left from every state of every run, in seven
steps, but for the states in which the task waits for itself (`can_leave_iff`).
-/

namespace Echonet

namespace Bridge

open Machine

/-! ## Steps that are enabled -/

/-- A call of the middleware sends its next event if there is room for it. -/
theorem step_send {b : Bridge} {call : MiddlewareCall} {event : Event} {rest : List Event}
    (hphase : b.phase = .middleware call (event :: rest)) (hroom : ¬ b.channel.IsFull) :
    ∃ b', b.step .send = some b' ∧ b'.phase = .afterSend call rest ∧
      b'.channel.queue = b.channel.queue ++ [event] := by
  cases hsend : b.channel.trySend event with
  | none => exact absurd (Channel.trySend_eq_none.mp hsend) hroom
  | some channel =>
    refine ⟨{ b with
      phase := .afterSend call rest, channel := channel, sent := b.sent ++ [event] }, ?_, rfl,
      (Channel.trySend_eq_some.mp hsend).2⟩
    rw [step, hphase]
    dsimp only
    rw [hsend, Option.map_some]

theorem step_signal {b : Bridge} (signal : Signal) (hphase : b.phase = .select) :
    b.step (.signal signal) = some { b with phase := .middleware .shutdown [.shutdown] } := by
  rw [step, hphase]
  rfl

/-- The oldest event is handled, which leaves the loop if it is a `Shutdown`. -/
theorem step_receive {b : Bridge} {event : Event} {queue : List Event} (hphase : b.phase = .select)
    (hqueue : b.channel.queue = event :: queue) :
    ∃ b', b.step .receive = some b' ∧ b'.channel.queue = queue ∧
      b'.phase = if event = .shutdown then .left (.ok ()) else .select := by
  have hbounded : queue.length ≤ 16 := by
    have hall := b.channel.bounded
    rw [hqueue, List.length_cons] at hall
    exact Nat.le_of_succ_le hall
  have hrecv : b.channel.tryRecv = some (event, ⟨queue, hbounded⟩) :=
    Channel.tryRecv_eq_some.mpr hqueue
  refine ⟨handle { b with
    channel := ⟨queue, hbounded⟩, handled := b.handled ++ [event] } event, ?_, ?_, ?_⟩
  · rw [step, hphase]
    dsimp only
    rw [hrecv, Option.map_some]
  · cases event <;> rfl
  · cases event with
    | startup => exact hphase
    | shutdown => rfl
    | announce seoj deoj => rfl

/-- A call of the middleware returns if there is room for all that it sends. -/
theorem exec_sends {call : MiddlewareCall} (rest : List Event) {b : Bridge} {event : Event}
    (hphase : b.phase = .middleware call (event :: rest))
    (hroom : b.channel.queue.length + rest.length < 16) :
    ∃ b', exec step b (List.replicate (rest.length + 1) .send) = some b' ∧ b'.phase = .select ∧
      b'.channel.queue = b.channel.queue ++ event :: rest := by
  induction rest generalizing b event with
  | nil =>
    obtain ⟨b', hstep, hafter, hqueue⟩ := step_send hphase (Nat.ne_of_lt hroom)
    exact ⟨b', by rw [List.length_nil, List.replicate_one, exec_cons, hstep]; rfl, hafter, hqueue⟩
  | cons next rest ih =>
    rw [List.length_cons] at hroom
    obtain ⟨b', hstep, hafter, hqueue⟩ := step_send hphase (Nat.ne_of_lt (by omega))
    have hlength : b'.channel.queue.length = b.channel.queue.length + 1 := by
      rw [hqueue, List.length_append, List.length_singleton]
    obtain ⟨b'', hrun, hselect, hqueue'⟩ := ih hafter (by omega)
    refine ⟨b'', ?_, hselect, ?_⟩
    · rw [List.length_cons, List.replicate_succ, exec_cons, hstep, Option.bind_some, hrun]
    · rw [hqueue', hqueue, List.append_assoc, List.singleton_append]

/-- A `Shutdown` in the channel is reached by receiving. -/
theorem exec_receives (queue : List Event) {b : Bridge} (hphase : b.phase = .select)
    (hqueue : b.channel.queue = queue) (hmem : .shutdown ∈ queue) :
    ∃ k b', exec step b (List.replicate k .receive) = some b' ∧ b'.phase = .left (.ok ()) := by
  induction queue generalizing b with
  | nil => exact absurd hmem List.not_mem_nil
  | cons event queue ih =>
    obtain ⟨b', hstep, hqueue', hphase'⟩ := step_receive hphase hqueue
    by_cases hevent : event = .shutdown
    · rw [if_pos hevent] at hphase'
      exact ⟨1, b', by rw [List.replicate_one, exec_cons, hstep]; rfl, hphase'⟩
    · rw [if_neg hevent] at hphase'
      have hmem' : .shutdown ∈ queue := (List.mem_cons.mp hmem).resolve_left (Ne.symm hevent)
      obtain ⟨k, b'', hrun, hleft⟩ := ih hphase' hqueue' hmem'
      exact ⟨k + 1, b'', by rw [List.replicate_succ, exec_cons, hstep]; exact hrun, hleft⟩

/-! ## What is handled -/

/-- The events that the loop handles, in their order. -/
def script : List Event := Middleware.new.startup ++ Middleware.new.shutdown

theorem handled_handle (b : Bridge) (event : Event) : (b.handle event).handled = b.handled := by
  cases event <;> rfl

/-- Every receive is an event handled. -/
theorem length_handled_run {labels : List Label} {b : Bridge}
    (h : exec step start labels = some b) : b.handled.length = receives labels := by
  refine exec_history (fun labels b => b.handled.length = receives labels) rfl
    (fun pre s label s' _ ih hstep => ?_) labels h
  rw [receives_concat]
  cases step_cases hstep with
  | send _ _ _ => rw [if_neg (by decide)]; exact ih
  | signal signal _ => rw [if_neg nofun]; exact ih
  | tick _ => rw [if_neg (by decide)]; exact ih
  | receive _ _ => rw [if_pos rfl, handled_handle, List.length_append, List.length_singleton, ih]

/-- Before a `Shutdown` is sent, only the events of `startup` are. -/
theorem isPrefix_startup {events : List Event} {n : ℕ}
    (h : events <+: Middleware.new.startup ++ List.replicate n .shutdown)
    (hnot : .shutdown ∉ events) : events <+: Middleware.new.startup := by
  rcases List.prefix_or_prefix_of_prefix h (List.prefix_append _ _) with hprefix | ⟨rest, rfl⟩
  · exact hprefix
  · rw [List.prefix_append_right_inj] at h
    have hnil : rest = [] := List.eq_nil_iff_forall_not_mem.mpr fun event hevent => by
      obtain rfl := List.eq_of_mem_replicate (h.subset hevent)
      exact hnot (List.mem_append_right _ hevent)
    rw [hnil, List.append_nil]

/-- **The loop handles the two events of `startup` and one `Shutdown`**, whatever happens. -/
theorem handled_isPrefix {labels : List Label} {b : Bridge}
    (h : exec step start labels = some b) :
    b.handled <+: script ∧ ((∃ result, b.phase = .left result) ↔ b.handled = script) := by
  have hb := accounted_run h
  obtain ⟨n, hsends⟩ := hb.sends
  by_cases hleft : ∃ result, b.phase = .left result
  · obtain ⟨result, hleft⟩ := hleft
    obtain ⟨-, before, hhandled, hbefore⟩ := hb.left result hleft
    have hpending : b.pending = [] := by rw [pending, hleft]
    rw [hpending, List.append_nil, hb.fifo, hhandled, List.append_assoc] at hsends
    have hstartup := before_shutdown hsends.symm hbefore
    have hscript : b.handled = script := by rw [hhandled, hstartup]; rfl
    exact ⟨hscript ▸ List.prefix_rfl, iff_of_true ⟨result, hleft⟩ hscript⟩
  · have hnot := hb.in_loop (not_exists.mp hleft)
    have hstartup : b.handled <+: Middleware.new.startup := by
      refine isPrefix_startup (n := n) ?_ hnot
      rw [← hsends, hb.fifo, List.append_assoc]
      exact List.prefix_append _ _
    refine ⟨hstartup.trans (List.prefix_append _ _), iff_of_false hleft fun hscript => hnot ?_⟩
    rw [hscript]
    exact List.mem_append_right _ List.mem_cons_self

/-! ## Leaving the loop -/

/-- The middleware is started before any signal is looked at. -/
theorem startup_run {labels : List Label} {b : Bridge} (h : exec step start labels = some b) :
    ∀ rest, b.phase = .middleware .startup rest → rest ≠ [] ∧ signals labels = 0 := by
  refine exec_history (fun labels b => ∀ rest, b.phase = .middleware .startup rest →
    rest ≠ [] ∧ signals labels = 0) (fun rest hrest => ?_)
    (fun pre s label s' _ ih hstep rest => ?_) labels h
  · cases hrest
    exact ⟨nofun, rfl⟩
  · cases step_cases hstep with
    | @send call event left channel hphase hroom hqueue =>
      intro hafter
      cases left with
      | nil => cases hafter
      | cons next left =>
        cases hafter
        refine ⟨nofun, ?_⟩
        rw [signals_concat, if_neg (by decide), (ih _ hphase).2]
    | signal signal hphase => nofun
    | tick hphase =>
      rw [hphase]
      nofun
    | @receive event channel hphase hqueue =>
      intro hstartup
      exact absurd hstartup ((handle_cases (b := { s with
        channel := channel, handled := s.handled ++ [event] }) hphase event).2.2 _ _)

/-- At the `select!`, one signal is enough. -/
theorem can_leave_of_select {labels : List Label} {b : Bridge}
    (h : exec step start labels = some b) (hphase : b.phase = .select) :
    ∃ more k b', more.length ≤ 2 ∧ exec step b (more ++ List.replicate k .receive) = some b' ∧
      b'.phase = .left (.ok ()) := by
  by_cases hmem : .shutdown ∈ b.channel.queue
  · obtain ⟨k, b', hrun, hleft⟩ := exec_receives b.channel.queue hphase rfl hmem
    exact ⟨[], k, b', Nat.zero_le _, hrun, hleft⟩
  · have hb := accounted_run h
    have hnot : .shutdown ∉ b.sent := by
      rw [hb.fifo, List.mem_append, not_or]
      exact ⟨hb.in_loop (ne_left_of_select hphase), hmem⟩
    obtain ⟨n, hsends⟩ := hb.sends
    rw [pending_of_select hphase, List.append_nil] at hsends
    have hlength := (isPrefix_startup (n := n) (hsends ▸ List.prefix_rfl) hnot).length_le
    rw [hb.fifo, List.length_append, startup_eq, List.length_cons, List.length_singleton] at hlength
    obtain ⟨b', hsend, hselect, hqueue⟩ := exec_sends
      (b := { b with phase := .middleware .shutdown [.shutdown] }) [] rfl
      (by dsimp only; rw [List.length_nil]; omega)
    obtain ⟨k, b'', hrun, hleft⟩ := exec_receives _ hselect hqueue
      (List.mem_append_right _ List.mem_cons_self)
    refine ⟨[.signal .terminate, .send], k, b'', le_rfl, ?_, hleft⟩
    rw [List.cons_append, exec_cons, step_signal .terminate hphase, Option.bind_some,
      exec_append_eq_some]
    exact ⟨b', hsend, hrun⟩

/-- From a state of a run that does not wait for itself, the loop can be left. -/
theorem can_leave {labels : List Label} {b : Bridge} (h : exec step start labels = some b)
    (hfree : ¬ b.Blocked) :
    ∃ more k b', more.length ≤ 4 ∧ exec step b (more ++ List.replicate k .receive) = some b' ∧
      b'.phase = .left (.ok ()) := by
  cases hphase : b.phase with
  | left result =>
    obtain ⟨rfl, -⟩ := (accounted_run h).left result hphase
    exact ⟨[], 0, b, Nat.zero_le _, rfl, hphase⟩
  | select =>
    obtain ⟨more, k, b', hmore, hrun⟩ := can_leave_of_select h hphase
    exact ⟨more, k, b', by omega, hrun⟩
  | middleware call rest =>
    -- The call returns first: there is room for what it has yet to send.
    obtain ⟨event, left, rfl, hroom, hleft⟩ : ∃ event left, rest = event :: left ∧
        b.channel.queue.length + left.length < 16 ∧ left.length ≤ 1 := by
      cases call with
      | startup =>
        obtain ⟨hne, hsignals⟩ := startup_run h rest hphase
        obtain ⟨event, left, rfl⟩ := List.exists_cons_of_ne_nil hne
        have hevents := (balance_run h).events
        rw [pending_of_phase hphase, List.length_cons, hsignals] at hevents
        exact ⟨event, left, rfl, by omega, by omega⟩
      | shutdown =>
        obtain ⟨rfl, -⟩ := (balance_run h).in_shutdown rest hphase
        refine ⟨.shutdown, [], rfl, ?_, Nat.zero_le _⟩
        have hnot : ¬ b.channel.IsFull := fun hfull => hfree ⟨⟨_, _, hphase⟩, hfull⟩
        exact Nat.lt_of_le_of_ne b.channel.bounded hnot
    obtain ⟨b', hsends, hselect, -⟩ := exec_sends left hphase hroom
    have hrun : exec step start (labels ++ List.replicate (left.length + 1) .send) = some b' :=
      (exec_append_eq_some step).mpr ⟨b, h, hsends⟩
    obtain ⟨more, k, b'', hmore, hrest, hend⟩ := can_leave_of_select hrun hselect
    refine ⟨List.replicate (left.length + 1) .send ++ more, k, b'', ?_, ?_, hend⟩
    · rw [List.length_append, List.length_replicate]
      omega
    · rw [List.append_assoc, exec_append_eq_some]
      exact ⟨b', hsends, hrest⟩

/-- A run makes no more than three receives. -/
theorem receives_le {labels : List Label} {b : Bridge} (h : exec step start labels = some b) :
    receives labels ≤ 3 := by
  rw [← length_handled_run h]
  exact (handled_isPrefix h).1.length_le

/-- The loop is left after three receives and a signal. -/
theorem receives_of_left {labels : List Label} {b : Bridge} (h : exec step start labels = some b)
    {result : Outcome ConnectorError Unit} (hleft : b.phase = .left result) :
    receives labels = 3 ∧ 0 < signals labels := by
  have hreceives := length_handled_run h
  rw [(handled_isPrefix h).2.mp ⟨result, hleft⟩] at hreceives
  have hthree : receives labels = 3 := hreceives.symm
  have hevents := (balance_run h).events
  exact ⟨hthree, by omega⟩

/-- **The loop can be left unless the task waits for itself**: from any other state of any run, in
no more than seven steps.  It has been left exactly when the three events have been handled, and
never without a signal. -/
theorem can_leave_iff {labels : List Label} {b : Bridge} (h : exec step start labels = some b) :
    ((∃ more b', more.length ≤ 7 ∧ exec step b more = some b' ∧ b'.phase = .left (.ok ())) ↔
        ¬ b.Blocked) ∧
      ((∃ result, b.phase = .left result) ↔ b.handled = script) ∧
      ((∃ result, b.phase = .left result) → receives labels = 3 ∧ 0 < signals labels) := by
  refine ⟨⟨?_, fun hfree => ?_⟩, (handled_isPrefix h).2, fun hleft => ?_⟩
  · rintro ⟨more, b', -, hrun, hleft⟩ hblocked
    cases more with
    | nil =>
      cases hrun
      obtain ⟨⟨_, _, hphase⟩, -⟩ := hblocked
      cases hphase.symm.trans hleft
    | cons label more =>
      rw [exec_cons, step_blocked hblocked] at hrun
      cases hrun
  · obtain ⟨more, k, b', hmore, hrun, hleft⟩ := can_leave h hfree
    have hk : k ≤ 3 := by
      have hall := receives_le ((exec_append_eq_some step).mpr ⟨b, h, hrun⟩)
      rw [receives, List.count_append, List.count_append, List.count_replicate_self] at hall
      omega
    refine ⟨more ++ List.replicate k .receive, b', ?_, hrun, hleft⟩
    rw [List.length_append, List.length_replicate]
    omega
  · obtain ⟨result, hleft⟩ := hleft
    exact receives_of_left h hleft

/-- In the middle of the second of two calls of `shutdown`, with three events in the channel. -/
theorem can_leave_iff_pending :
    ∃ b, exec step start [.send, .send, .signal .interrupt, .send, .tick, .signal .terminate]
        = some b ∧
      b.channel.queue.length = 3 ∧ b.pending = [.shutdown] ∧ (¬ ∃ result, b.phase = .left result) ∧
      ∃ more b', more.length ≤ 7 ∧ exec step b more = some b' ∧ b'.phase = .left (.ok ()) := by
  obtain ⟨b, hrun, hqueue, hpending, hhandled⟩ : ∃ b,
      exec step start [.send, .send, .signal .interrupt, .send, .tick, .signal .terminate]
        = some b ∧
      b.channel.queue.length = 3 ∧ b.pending = [.shutdown] ∧ b.handled = [] :=
    ⟨_, rfl, rfl, rfl, rfl⟩
  obtain ⟨hleave, hleft, -⟩ := can_leave_iff hrun
  refine ⟨b, hrun, hqueue, hpending, ?_, hleave.mpr fun hblocked => ?_⟩
  · rw [hleft, hhandled]
    exact nofun
  · have hfull := hblocked.2
    rw [Channel.IsFull, hqueue] at hfull
    exact absurd hfull (by decide)

end Bridge

end Echonet
