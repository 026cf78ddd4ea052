import EchonetBridge.Main.Loop

/-!
# Main/Blocking — the loop and its own queue

The task is the only receiver of the channel it sends on.  Every signal adds an event, every receive
takes one away, and two events were there to begin with (`balance_run`).  A signal that finds
sixteen events waiting blocks the task for good (`step_blocked`); the loop never blocks exactly when
every signal comes while fewer are waiting (`never_blocked_iff`).
-/

namespace Echonet

namespace Bridge

/-! ## Blocked states -/

/-- The task waits in `shutdown` for room in its own channel. -/
def Blocked (b : Bridge) : Prop :=
  (∃ event rest, b.phase = .middleware .shutdown (event :: rest)) ∧ b.channel.IsFull

/-- **A blocked task is blocked for good**: no step is enabled. -/
theorem step_blocked {b : Bridge} (h : b.Blocked) (label : Label) : b.step label = none := by
  obtain ⟨⟨event, rest, hphase⟩, hfull⟩ := h
  cases label with
  | send =>
    have hsend : b.channel.trySend event = none := Channel.trySend_eq_none.mpr hfull
    simp only [step, hphase, hsend, Option.map_none]
  | signal signal => rw [step, hphase]
  | tick => rw [step, hphase]
  | receive => rw [step, hphase]

/-! ## The balance of the channel -/

/-- The events that the call the task is in has yet to send. -/
def pending (b : Bridge) : List Event :=
  match b.phase with
  | .middleware _ rest => rest
  | _ => []

def Label.isSignal : Label → Bool
  | .signal _ => true
  | _ => false

/-- The signals among the steps of a run. -/
def signals (labels : List Label) : ℕ := labels.countP Label.isSignal

/-- The receives among the steps of a run. -/
def receives (labels : List Label) : ℕ := labels.count .receive

theorem signals_concat (labels : List Label) (label : Label) :
    signals (labels ++ [label]) = signals labels + if label.isSignal then 1 else 0 := by
  rw [signals, List.countP_append, List.countP_singleton, signals]

theorem receives_concat (labels : List Label) (label : Label) :
    receives (labels ++ [label]) = receives labels + if label = .receive then 1 else 0 := by
  rw [receives, List.count_append, List.count_singleton, receives]
  simp only [beq_iff_eq]

theorem pending_of_phase {b : Bridge} {call : MiddlewareCall} {rest : List Event}
    (h : b.phase = .middleware call rest) : b.pending = rest := by
  rw [pending, h]

theorem pending_of_select {b : Bridge} (h : b.phase = .select) : b.pending = [] := by
  rw [pending, h]

theorem pending_of_afterSend {b : Bridge} {call : MiddlewareCall} {rest : List Event}
    (h : b.phase = .afterSend call rest) : b.pending = rest := by
  rw [pending, h]
  cases rest <;> rfl

/-- Handling an event leaves nothing to send, and the channel as it is. -/
theorem handle_cases {b : Bridge} (h : b.phase = .select) (event : Event) :
    (b.handle event).channel = b.channel ∧ (b.handle event).pending = [] ∧
      ∀ call rest, (b.handle event).phase ≠ .middleware call rest := by
  cases event with
  | startup => exact ⟨rfl, pending_of_select h, fun _ _ => by rw [handle, h]; nofun⟩
  | shutdown => exact ⟨rfl, rfl, fun _ _ => nofun⟩
  | announce seoj deoj => exact ⟨rfl, rfl, fun _ _ => nofun⟩

/-- What is in flight or still to be sent, after the steps of a run.  A task in `shutdown` has only
just been sent there by a signal. -/
structure Balance (labels : List Label) (b : Bridge) : Prop where
  events : b.channel.queue.length + b.pending.length + receives labels = 2 + signals labels
  in_shutdown : ∀ rest, b.phase = .middleware .shutdown rest →
    rest = [.shutdown] ∧ ∃ pre signal, labels = pre ++ [.signal signal]

theorem balance_start : Balance [] start := ⟨rfl, nofun⟩

/-- **One step keeps the balance.** -/
theorem balance_step {labels : List Label} {b b' : Bridge} {label : Label}
    (hb : Balance labels b) (h : b.step label = some b') : Balance (labels ++ [label]) b' := by
  have hevents := hb.events
  cases step_cases h with
  | @send call event rest channel hphase hroom hqueue =>
    refine ⟨?_, fun rest' hrest' => ?_⟩
    · -- The event moves from what is pending to what is in flight.
      rw [pending_of_phase hphase, List.length_cons] at hevents
      rw [pending_of_afterSend rfl, hqueue, List.length_append, List.length_singleton,
        signals_concat, receives_concat, if_neg (by decide), if_neg (by decide)]
      omega
    · -- A call that still has to send after this is not `shutdown`, which sends one event.
      cases rest with
      | nil => exact nomatch hrest'
      | cons event' rest =>
        cases hrest'
        exact nomatch (hb.in_shutdown _ hphase).1
  | signal signal hphase =>
    refine ⟨?_, fun rest hrest => ?_⟩
    · rw [pending_of_select hphase, List.length_nil] at hevents
      rw [pending_of_phase rfl, List.length_singleton, signals_concat, receives_concat,
        if_neg (by nofun), if_pos (by rfl)]
      dsimp only
      omega
    · cases hrest
      exact ⟨rfl, labels, signal, rfl⟩
  | tick hphase =>
    refine ⟨?_, fun rest hrest => ?_⟩
    · rw [signals_concat, receives_concat, if_neg (by decide), if_neg (by decide)]
      exact hevents
    · rw [hphase] at hrest
      exact nomatch hrest
  | @receive event channel hphase hqueue =>
    obtain ⟨hchannel, hpending, hleft⟩ := handle_cases
      (b := { b with channel := channel, handled := b.handled ++ [event] }) hphase event
    refine ⟨?_, fun rest hrest => absurd hrest (hleft _ _)⟩
    rw [pending_of_select hphase, hqueue, List.length_cons, List.length_nil] at hevents
    rw [hchannel, hpending, List.length_nil, signals_concat, receives_concat, if_pos rfl,
      if_neg (by decide)]
    dsimp only
    omega

/-- The balance holds in every state that a run reaches. -/
theorem balance_run {labels : List Label} {b : Bridge}
    (h : Machine.exec step start labels = some b) : Balance labels b :=
  Machine.exec_history Balance balance_start (fun _ _ _ _ _ => balance_step) labels h

/-! ## Runs that block -/

/-- A signal takes the task from the `select!` into `shutdown`, and leaves the channel alone. -/
theorem signal_cases {pre : List Label} {signal : Signal} {b : Bridge}
    (h : Machine.exec step start (pre ++ [.signal signal]) = some b) :
    ∃ b', Machine.exec step start pre = some b' ∧ b'.phase = .select ∧
      b = { b' with phase := .middleware .shutdown [.shutdown] } := by
  obtain ⟨b', hpre, hstep⟩ := (Machine.exec_concat_eq_some step).mp h
  cases step_cases hstep with
  | signal _ hphase => exact ⟨b', hpre, hphase, rfl⟩

/-- **A signal blocks the task** exactly when the signals before it are fourteen more than the
receives. -/
theorem blocked_of_signal_iff {pre : List Label} {signal : Signal} {b : Bridge}
    (h : Machine.exec step start (pre ++ [.signal signal]) = some b) :
    b.Blocked ↔ receives pre + 14 ≤ signals pre := by
  obtain ⟨b', hpre, hphase, rfl⟩ := signal_cases h
  have hevents := (balance_run hpre).events
  have hbounded := b'.channel.bounded
  rw [pending_of_select hphase, List.length_nil] at hevents
  constructor
  · rintro ⟨-, hfull⟩
    rw [Channel.IsFull] at hfull
    dsimp only at hfull
    omega
  · intro hle
    refine ⟨⟨.shutdown, [], rfl⟩, ?_⟩
    rw [Channel.IsFull]
    dsimp only
    omega

/-- **The loop never blocks on its own queue**, all along a run, exactly when every signal comes
while the signals before it are fewer than fourteen more than the receives. -/
theorem never_blocked_iff {labels : List Label} {b : Bridge}
    (h : Machine.exec step start labels = some b) :
    (∀ pre b', pre <+: labels → Machine.exec step start pre = some b' → ¬ b'.Blocked) ↔
      ∀ pre signal, pre ++ [.signal signal] <+: labels → signals pre < receives pre + 14 := by
  constructor
  · rintro hnever pre signal ⟨post, hpost⟩
    rw [← hpost, Machine.exec_append_eq_some] at h
    obtain ⟨b', hrun, -⟩ := h
    have hnot := hnever _ b' ⟨post, hpost⟩ hrun
    rw [blocked_of_signal_iff hrun] at hnot
    exact Nat.not_le.mp hnot
  · intro hfew pre b' hpre hrun hblocked
    obtain ⟨⟨event, rest, hphase⟩, -⟩ := id hblocked
    obtain ⟨-, pre', signal, rfl⟩ := (balance_run hrun).in_shutdown _ hphase
    exact absurd ((blocked_of_signal_iff hrun).mp hblocked) (Nat.not_le.mpr (hfew pre' signal hpre))

theorem never_blocked_iff_interrupt :
    ∃ b, Machine.exec step start [.send, .send, .signal .interrupt, .send, .receive] = some b ∧
      ∀ pre b', pre <+: [.send, .send, .signal .interrupt, .send, .receive] →
        Machine.exec step start pre = some b' → ¬ b'.Blocked := by
  refine ⟨_, rfl, (never_blocked_iff rfl).mpr fun pre signal hpre => ?_⟩
  have hlength := hpre.length_le
  have hsignals : signals pre ≤ pre.length := List.countP_le_length
  simp only [List.length_append, List.length_cons, List.length_nil] at hlength
  omega

/-- Fifteen signals before the first receive: the last of them waits for the task itself. -/
theorem fifteen_signals_block :
    ∃ b, Machine.exec step start ([.send, .send] ++
        (List.replicate 14 [Label.signal .interrupt, .send]).flatten ++ [.signal .interrupt])
          = some b ∧
      b.Blocked :=
  ⟨_, rfl, ⟨_, _, rfl⟩, by decide⟩

end Bridge

end Echonet
