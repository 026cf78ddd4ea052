import EchonetBridge.Connectors.Memberships
import EchonetBridge.Main.Progress

/-!
# Main/Program — the program from its start to its end

`main` finds the interfaces, opens their sockets, runs the loop and closes the sockets again; an
error of any of these ends it.  When it ends well, it has been through all of them and has left
every group that it joined (`exits_ok`); whether it can is up to the answers of the operating system
(`can_exit_ok_iff`).
-/

namespace Echonet

open Outcome Visit

/-- What the program is started with, and how the operating system answers it. -/
structure Surroundings where
  config : AppNetworkConfiguration
  ifaddrs : List InterfaceAddress
  ifNametoindex : IfNametoindex
  order : HashOrder InterfaceListenAddresses
  /-- The calls on sockets before the loop. -/
  connecting : SocketCalls
  /-- The calls on sockets after the loop. -/
  disconnecting : SocketCalls

/-- Where the program is, with the network as it is left there. -/
inductive Program where
  | started
  | initialised (network : Network)
  | running (network : Network) (bridge : Bridge)
  | exited (result : Outcome ConnectorError Unit) (network : Network)

namespace Program

/-- The steps of `main`. -/
inductive Label where
  | initialise
  | connect
  | loop (label : Bridge.Label)
  | finish
  deriving DecidableEq, Repr

/-- Go on if a call has returned, and exit with its result if it has not. -/
def orExit (go : Network → Program) : Outcome ConnectorError Unit × Network → Program
  | (.ok (), network) => go network
  | (result, network) => exited result network

/-- One step, if it is enabled. -/
def step (s : Surroundings) : Program → Label → Option Program
  | started, .initialise =>
    some <| orExit initialised <|
      Network.initialise s.config s.ifaddrs s.ifNametoindex s.order Network.new
  | initialised network, .connect =>
    some <| orExit (running · Bridge.start) <| network.connect s.connecting
  | running network bridge, .loop label => (bridge.step label).map (running network)
  | running network bridge, .finish =>
    match bridge.phase with
    | .left (.ok ()) =>
      some <| orExit (exited (.ok ())) <| network.disconnect s.disconnecting
    | .left result => some (exited result network)
    | _ => none
  | _, _ => none

/-! ## How a state comes about -/

variable (s : Surroundings)

/-- What initialisation returns. -/
def atInitialise : Outcome ConnectorError Unit × Network :=
  Network.initialise s.config s.ifaddrs s.ifNametoindex s.order Network.new

/-- A network was found and is closed. -/
def Found (network : Network) : Prop := atInitialise s = (.ok (), network)

/-- The states of the program, each with the steps and the calls that lead to it. -/
inductive Reached : List Label → Program → Prop
  | started : Reached [] started
  | not_initialised {result : Outcome ConnectorError Unit} {network : Network}
      (hresult : result ≠ .ok ()) (h : atInitialise s = (result, network)) :
      Reached [.initialise] (exited result network)
  | initialised {found : Network} (hfound : Found s found) :
      Reached [.initialise] (initialised found)
  | not_connected {found : Network} {result : Outcome ConnectorError Unit} {network : Network}
      (hfound : Found s found) (hresult : result ≠ .ok ())
      (h : found.connect s.connecting = (result, network)) :
      Reached [.initialise, .connect] (exited result network)
  | running {found network : Network} {bridge : Bridge} {loops : List Bridge.Label}
      (hfound : Found s found) (hconnect : found.connect s.connecting = (.ok (), network))
      (hrun : Machine.exec Bridge.step Bridge.start loops = some bridge) :
      Reached (.initialise :: .connect :: loops.map .loop) (running network bridge)
  | finished {found network closed : Network} {bridge : Bridge} {loops : List Bridge.Label}
      {result : Outcome ConnectorError Unit}
      (hfound : Found s found) (hconnect : found.connect s.connecting = (.ok (), network))
      (hrun : Machine.exec Bridge.step Bridge.start loops = some bridge)
      (hleft : bridge.phase = .left (.ok ()))
      (hdisconnect : network.disconnect s.disconnecting = (result, closed)) :
      Reached (.initialise :: .connect :: loops.map .loop ++ [.finish]) (exited result closed)

variable {s}

theorem orExit_cases (go : Network → Program) (call : Outcome ConnectorError Unit × Network) :
    (∃ network, call = (.ok (), network) ∧ orExit go call = go network) ∨
      ∃ result network, result ≠ .ok () ∧ call = (result, network) ∧
        orExit go call = exited result network := by
  obtain ⟨_ | e | _, network⟩ := call
  · exact Or.inl ⟨network, rfl, rfl⟩
  · exact Or.inr ⟨.err e, network, nofun, rfl, rfl⟩
  · exact Or.inr ⟨.panic, network, nofun, rfl, rfl⟩

/-- **One step** leads from a state that came about by these calls to another. -/
theorem reached_step {labels : List Label} {p p' : Program} {label : Label}
    (h : Reached s labels p) (hstep : step s p label = some p') :
    Reached s (labels ++ [label]) p' := by
  cases h with
  | started =>
    cases label with
    | initialise =>
      cases hstep
      rcases orExit_cases initialised (atInitialise s) with
        ⟨network, hcall, hnext⟩ | ⟨result, network, hresult, hcall, hnext⟩
      · exact hnext ▸ Reached.initialised hcall
      · exact hnext ▸ Reached.not_initialised hresult hcall
    | connect => cases hstep
    | loop label => cases hstep
    | finish => cases hstep
  | initialised hfound =>
    cases label with
    | connect =>
      cases hstep
      rcases orExit_cases (Program.running · Bridge.start) (Network.connect s.connecting _) with
        ⟨network, hcall, hnext⟩ | ⟨result, network, hresult, hcall, hnext⟩
      · exact hnext ▸ Reached.running hfound hcall (Machine.exec_nil _ _)
      · exact hnext ▸ Reached.not_connected hfound hresult hcall
    | initialise => cases hstep
    | loop label => cases hstep
    | finish => cases hstep
  | @running found network bridge loops hfound hconnect hrun =>
    cases label with
    | loop label =>
      obtain ⟨bridge', hbridge, rfl⟩ := Option.map_eq_some_iff.mp hstep
      have hnext := (Machine.exec_concat_eq_some _).mpr ⟨bridge, hrun, hbridge⟩
      have hreached := Reached.running (s := s) hfound hconnect hnext
      rw [List.map_append] at hreached
      exact hreached
    | finish =>
      rw [step] at hstep
      split at hstep
      · next hleft =>
        cases hstep
        rcases orExit_cases (exited (.ok ())) (network.disconnect s.disconnecting) with
          ⟨closed, hcall, hnext⟩ | ⟨result, closed, -, hcall, hnext⟩
        · exact hnext ▸ Reached.finished hfound hconnect hrun hleft hcall
        · exact hnext ▸ Reached.finished hfound hconnect hrun hleft hcall
      · next result hnot hleft =>
        -- The loop is not left with an error.
        exact absurd ((Bridge.accounted_run hrun).left result hleft).1 (fun h => hnot (h ▸ rfl))
      · cases hstep
    | initialise => cases hstep
    | connect => cases hstep
  | not_initialised _ _ => cases label <;> cases hstep
  | not_connected _ _ _ => cases label <;> cases hstep
  | finished _ _ _ _ _ => cases label <;> cases hstep

/-- Every state of a run came about by these calls. -/
theorem reached_run {labels : List Label} {p : Program}
    (h : Machine.exec (step s) started labels = some p) : Reached s labels p :=
  Machine.exec_history (Reached s) .started (fun _ _ _ _ _ => reached_step) labels h

/-! ## Exits -/

theorem Found.allClosed {found : Network} (h : Found s found) : found.AllClosed :=
  allClosed_initialise h

/-- The steps that lead to a good exit. -/
theorem of_exited_ok {labels : List Label} {closed : Network}
    (h : Reached s labels (exited (.ok ()) closed)) :
    ∃ found network bridge loops, labels = .initialise :: .connect :: loops.map .loop ++ [.finish] ∧
      Found s found ∧ found.connect s.connecting = (.ok (), network) ∧
      Machine.exec Bridge.step Bridge.start loops = some bridge ∧ bridge.phase = .left (.ok ()) ∧
      network.disconnect s.disconnecting = (.ok (), closed) := by
  cases h with
  | not_initialised hresult _ => exact absurd rfl hresult
  | not_connected _ hresult _ => exact absurd rfl hresult
  | finished hfound hconnect hrun hleft hdisconnect =>
    exact ⟨_, _, _, _, rfl, hfound, hconnect, hrun, hleft, hdisconnect⟩

/-- When the program exits well, all that it asked for was done. -/
theorem found_of_exited_ok {labels : List Label} {network : Network}
    (h : Reached s labels (exited (.ok ()) network)) :
    Found s network ∧
      (network.connect s.connecting).1 = .ok () ∧
      Succeed s.disconnecting.Answers 0
        ((SocketView.memberships network.views).map .leaveMulticast) := by
  obtain ⟨found, opened, -, -, -, hfound, hconnect, -, -, hdisconnect⟩ := of_exited_ok h
  have hok : (found.connect s.connecting).1 = .ok () := congrArg Prod.fst hconnect
  have hleaves : ((found.connect s.connecting).2.disconnect s.disconnecting).1 = .ok () := by
    rw [hconnect, hdisconnect]
  have hsame : network = found := by
    have hback := disconnect_connect hfound.allClosed hleaves
    rw [hconnect, hdisconnect] at hback
    exact hback
  rw [hsame]
  refine ⟨hfound, hok, ?_⟩
  rw [← leaves_connect hok]
  exact disconnect_eq_ok_iff.mp hleaves

/-- **The program exits well** only through all of its steps: the network was found, all of its
sockets were opened and the loop was left, at a signal and after three events.  Then it asked to
leave every group that was joined, they were all left, and the network is as it was found. -/
theorem exits_ok {labels : List Label} {network : Network}
    (h : Machine.exec (step s) started labels = some (exited (.ok ()) network)) :
    Found s network ∧
      Succeed s.connecting.Answers 0 (network.calls InterfaceSocket.connectCalls) ∧
      (network.connect s.connecting).2.AllOpen ∧
      Succeed s.disconnecting.Answers 0
        ((SocketView.memberships network.views).map .leaveMulticast) ∧
      ∃ loops, labels = .initialise :: .connect :: loops.map .loop ++ [.finish] ∧
        Bridge.receives loops = 3 ∧ 0 < Bridge.signals loops := by
  have hreached := reached_run h
  obtain ⟨hfound, hok, hleaves⟩ := found_of_exited_ok hreached
  obtain ⟨-, -, bridge, loops, hlabels, -, -, hrun, hleft, -⟩ := of_exited_ok hreached
  exact ⟨hfound, (connect_eq_ok_iff hfound.allClosed).mp hok, allOpen_connect hfound.allClosed hok,
    hleaves, loops, hlabels, Bridge.receives_of_left hrun hleft⟩

/-! ## Runs that exit -/

/-- The steps of the loop are those of the program while it is running. -/
theorem exec_loop (network : Network) (loops : List Bridge.Label) (bridge : Bridge) :
    Machine.exec (step s) (running network bridge) (loops.map .loop)
      = (Machine.exec Bridge.step bridge loops).map (running network) := by
  induction loops generalizing bridge with
  | nil => rfl
  | cons label loops ih =>
    rw [List.map_cons, Machine.exec_cons, Machine.exec_cons, step]
    cases bridge.step label with
    | none => rfl
    | some bridge' => exact ih bridge'

theorem step_finish {network : Network} {bridge : Bridge} (hleft : bridge.phase = .left (.ok ())) :
    step s (running network bridge) .finish
      = some (orExit (exited (.ok ())) (network.disconnect s.disconnecting)) := by
  rw [step, hleft]

/-- A run to a good exit, if the loop is left. -/
theorem exec_exited {found network closed : Network} {bridge : Bridge} {loops : List Bridge.Label}
    (hfound : Found s found) (hconnect : found.connect s.connecting = (.ok (), network))
    (hrun : Machine.exec Bridge.step Bridge.start loops = some bridge)
    (hleft : bridge.phase = .left (.ok ()))
    (hdisconnect : network.disconnect s.disconnecting = (.ok (), closed)) :
    Machine.exec (step s) started (.initialise :: .connect :: loops.map .loop ++ [.finish])
      = some (exited (.ok ()) closed) := by
  have hinitialise : step s started .initialise = some (initialised found) :=
    congrArg (some ∘ orExit initialised) hfound
  have hconnected : step s (initialised found) .connect = some (running network Bridge.start) :=
    congrArg (some ∘ orExit (running · Bridge.start)) hconnect
  have hfinish : step s (running network bridge) .finish = some (exited (.ok ()) closed) := by
    rw [step_finish hleft, hdisconnect]
    rfl
  refine (Machine.exec_concat_eq_some (step s)).mpr ⟨running network bridge, ?_, hfinish⟩
  rw [Machine.exec_cons, hinitialise, Option.bind_some, Machine.exec_cons, hconnected,
    Option.bind_some, exec_loop, hrun, Option.map_some]

/-- A run to a good exit, if all calls succeed. -/
theorem exec_of_succeed {network : Network} (hfound : Found s network)
    (hopens : Succeed s.connecting.Answers 0 (network.calls InterfaceSocket.connectCalls))
    (hleaves : Succeed s.disconnecting.Answers 0
      ((SocketView.memberships network.views).map .leaveMulticast)) :
    ∃ labels network,
      Machine.exec (step s) started labels = some (exited (.ok ()) network) := by
  have hok := (connect_eq_ok_iff hfound.allClosed).mpr hopens
  have hconnect := Prod.ext (y := (_, (network.connect s.connecting).2)) hok rfl
  rw [← leaves_connect hok, ← disconnect_eq_ok_iff] at hleaves
  have hdisconnect := Prod.ext (y := (_, _)) hleaves rfl
  have hfree : ¬ Bridge.start.Blocked := by
    rintro ⟨⟨_, _, hphase⟩, -⟩
    cases hphase
  obtain ⟨more, k, bridge, -, hrun, hleft⟩ := Bridge.can_leave (Machine.exec_nil _ _) hfree
  exact ⟨_, _, exec_exited hfound hconnect hrun hleft hdisconnect⟩

/-- **The program can exit well** exactly when the network is found, all calls that open its
sockets succeed, and all groups of its sockets can be left. -/
theorem can_exit_ok_iff :
    (∃ labels network,
      Machine.exec (step s) started labels = some (exited (.ok ()) network)) ↔
      ∃ network, Found s network ∧
        Succeed s.connecting.Answers 0 (network.calls InterfaceSocket.connectCalls) ∧
        Succeed s.disconnecting.Answers 0
          ((SocketView.memberships network.views).map .leaveMulticast) := by
  constructor
  · rintro ⟨labels, network, h⟩
    obtain ⟨hfound, hok, hleaves⟩ := found_of_exited_ok (reached_run h)
    exact ⟨network, hfound, (connect_eq_ok_iff hfound.allClosed).mp hok, hleaves⟩
  · rintro ⟨network, hfound, hopens, hleaves⟩
    exact exec_of_succeed hfound hopens hleaves

/-- Every call succeeds. -/
def allCalls : SocketCalls where
  bind _ address := .ok ⟨address⟩
  joinMulticast _ _ := .ok ()
  leaveMulticast _ _ := .ok ()

theorem succeed_allCalls (n : ℕ) (calls : List SocketCall) : Succeed allCalls.Answers n calls := by
  intro k call _
  cases call with
  | bind address => exact ⟨_, rfl⟩
  | joinMulticast membership => exact ⟨_, rfl⟩
  | leaveMulticast membership => exact ⟨_, rfl⟩

/-- Three records, and every call succeeds. -/
def interleavedSurroundings : Surroundings where
  config := ⟨none, false⟩
  ifaddrs := interleavedRecords
  ifNametoindex _ name := .ok (interleavedIndex name)
  order := ⟨List.reverse, List.reverse_perm⟩
  connecting := allCalls
  disconnecting := allCalls

theorem exits_ok_interleaved :
    ∃ labels network,
      Machine.exec (step interleavedSurroundings) started labels
        = some (exited (.ok ()) network) ∧
      (network.connect allCalls).2.AllOpen ∧
      ∃ loops, labels = .initialise :: .connect :: loops.map .loop ++ [.finish] ∧
        Bridge.receives loops = 3 ∧ 0 < Bridge.signals loops := by
  have hfound : Found interleavedSurroundings _ :=
    initialise_eq hasMask_interleavedRecords (fun _ _ => rfl) _ _
  obtain ⟨labels, network, hrun⟩ :=
    exec_of_succeed hfound (succeed_allCalls 0 _) (succeed_allCalls 0 _)
  obtain ⟨-, -, hopen, -, hloops⟩ := exits_ok hrun
  exact ⟨labels, network, hrun, hopen, hloops⟩

end Program

end Echonet
