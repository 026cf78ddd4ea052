import EchonetBridge.Connectors.Collection
import Mathlib.Data.List.Forall2
import Mathlib.Data.Option.Basic

/-!
# Connectors/Configuration — what a configuration document says

A field that a document leaves out is the default of the field's type, and a section that it leaves
out is the default of the section.  The two differ for every field that can be left out
(`deserialise_eq_filled_iff`): an interface that is given by its name alone is not listened on, and
point-to-point links are skipped only if no section is given (`listened_document_iff`).
-/

namespace Echonet

/-! ## Documents -/

/-- The fields of an interface that a document gives. -/
structure InterfaceDocument where
  name : Option String
  port : Option UInt16
  ipv4 : Option Bool
  ipv6 : Option Bool

structure NetworkDocument where
  interfaces : Option (List InterfaceDocument)
  skipPtp : Option Bool

structure Document where
  network : Option NetworkDocument

/-- What an interface is by default. -/
def AppInterfaceConfiguration.default : AppInterfaceConfiguration := ⟨"", defaultPort, true, true⟩

/-- What the network is by default. -/
def AppNetworkConfiguration.default : AppNetworkConfiguration := ⟨none, true⟩

/-- An interface of its defaults, where the document leaves them out.  The name must be there. -/
def InterfaceDocument.read (base : AppInterfaceConfiguration) (d : InterfaceDocument) :
    Option AppInterfaceConfiguration :=
  d.name.map fun name =>
    ⟨name, d.port.getD base.port, d.ipv4.getD base.ipv4, d.ipv6.getD base.ipv6⟩

def NetworkDocument.read (base : AppInterfaceConfiguration) (skipPtp : Bool) (d : NetworkDocument) :
    Option AppNetworkConfiguration :=
  match d.interfaces with
  | none => some ⟨none, d.skipPtp.getD skipPtp⟩
  | some entries => (entries.mapM (InterfaceDocument.read base)).map fun interfaces =>
      ⟨some interfaces, d.skipPtp.getD skipPtp⟩

def Document.read (base : AppInterfaceConfiguration) (skipPtp : Bool) (d : Document) :
    Option AppNetworkConfiguration :=
  match d.network with
  | none => some .default
  | some network => network.read base skipPtp

/-- The defaults of the types of the fields. -/
def fieldDefaults : AppInterfaceConfiguration := ⟨"", 0, false, false⟩

/-- How a document is read: a field that is left out has the default of its type. -/
def Document.deserialise : Document → Option AppNetworkConfiguration := read fieldDefaults false

/-- A document with the defaults of the interface and the network where it leaves them out. -/
def Document.filled : Document → Option AppNetworkConfiguration :=
  read .default AppNetworkConfiguration.default.skipPtp

/-! ## What is left out -/

/-- Nothing is left out of an interface. -/
structure InterfaceDocument.Complete (d : InterfaceDocument) : Prop where
  port : d.port ≠ none
  ipv4 : d.ipv4 ≠ none
  ipv6 : d.ipv6 ≠ none

/-- Nothing is left out of a section but the list of interfaces. -/
structure NetworkDocument.Complete (d : NetworkDocument) : Prop where
  interfaces : ∀ entry ∈ d.interfaces.getD [], entry.Complete
  skipPtp : d.skipPtp ≠ none

/-- Every interface of the section has a name. -/
def NetworkDocument.Named (d : NetworkDocument) : Prop :=
  ∀ entry ∈ d.interfaces.getD [], entry.name ≠ none

section Fill

variable {base base' : AppInterfaceConfiguration} {skipPtp skipPtp' : Bool}

theorem getD_eq_getD_iff {α : Type} {a b : α} (hne : a ≠ b) (o : Option α) :
    o.getD a = o.getD b ↔ o ≠ none := by
  cases o with
  | none => exact iff_of_false hne (not_not.mpr rfl)
  | some c => exact iff_of_true rfl (Option.some_ne_none c)

/-- All defaults of one differ from those of the other. -/
structure Apart (base base' : AppInterfaceConfiguration) : Prop where
  port : base.port ≠ base'.port
  ipv4 : base.ipv4 ≠ base'.ipv4
  ipv6 : base.ipv6 ≠ base'.ipv6

theorem InterfaceDocument.read_eq_read_iff (h : Apart base base') {d : InterfaceDocument}
    (hname : d.name ≠ none) : d.read base = d.read base' ↔ d.Complete := by
  obtain ⟨name, hname⟩ := Option.ne_none_iff_exists'.mp hname
  rw [read, read, hname, Option.map_some, Option.map_some, Option.some_inj,
    AppInterfaceConfiguration.mk.injEq, eq_self_iff_true, true_and, getD_eq_getD_iff h.port,
    getD_eq_getD_iff h.ipv4, getD_eq_getD_iff h.ipv6]
  exact ⟨fun ⟨hport, h4, h6⟩ => ⟨hport, h4, h6⟩, fun h => ⟨h.port, h.ipv4, h.ipv6⟩⟩

/-- What is read of a list is what is read of its elements. -/
theorem mapM_eq_some_iff {α β : Type} {f : α → Option β} {l : List α} {l' : List β} :
    l.mapM f = some l' ↔ List.Forall₂ (fun a b => f a = some b) l l' := by
  induction l generalizing l' with
  | nil => simp [eq_comm]
  | cons a l ih =>
    rw [List.mapM_cons]
    constructor
    · intro h
      obtain ⟨b, hb, hrest⟩ := Option.bind_eq_some_iff.mp h
      obtain ⟨bs, hbs, hl'⟩ := Option.bind_eq_some_iff.mp hrest
      cases hl'
      exact .cons hb (ih.mp hbs)
    · rintro (_ | ⟨hb, hbs⟩)
      rw [hb, ih.mpr hbs]
      rfl

theorem mapM_eq_none_iff {α β : Type} {f : α → Option β} {l : List α} :
    l.mapM f = none ↔ ∃ a ∈ l, f a = none := by
  induction l with
  | nil => exact iff_of_false nofun nofun
  | cons a l ih =>
    rw [List.mapM_cons]
    simp only [List.mem_cons, exists_eq_or_imp]
    rw [← ih]
    cases f a with
    | none => exact iff_of_true rfl (Or.inl rfl)
    | some b =>
      cases l.mapM f with
      | none => exact iff_of_true rfl (Or.inr rfl)
      | some bs => exact iff_of_false nofun (not_or.mpr ⟨nofun, nofun⟩)

theorem exists_mapM_eq_some {α β : Type} {f : α → Option β} {l : List α}
    (hsome : ∀ a ∈ l, f a ≠ none) : ∃ l', l.mapM f = some l' :=
  Option.ne_none_iff_exists'.mp <|
    mapM_eq_none_iff.not.mpr fun ⟨a, ha, hnone⟩ => hsome a ha hnone

/-- Two ways to read a list agree if they agree on its elements, where one of them reads all. -/
theorem mapM_eq_mapM_iff {α β : Type} {f g : α → Option β} {l : List α}
    (hsome : ∀ a ∈ l, f a ≠ none) : l.mapM f = l.mapM g ↔ ∀ a ∈ l, f a = g a := by
  induction l with
  | nil => exact iff_of_true rfl nofun
  | cons a l ih =>
    rw [List.forall_mem_cons] at hsome ⊢
    rw [List.mapM_cons, List.mapM_cons, ← ih hsome.2]
    obtain ⟨b, hb⟩ := Option.ne_none_iff_exists'.mp hsome.1
    obtain ⟨bs, hbs⟩ := exists_mapM_eq_some hsome.2
    rw [hb, hbs]
    cases g a <;> cases l.mapM g <;> simp

theorem NetworkDocument.read_eq_none_iff {d : NetworkDocument} :
    d.read base skipPtp = none ↔ ¬ d.Named := by
  rw [read, Named]
  cases d.interfaces with
  | none => simp
  | some entries =>
    dsimp only
    rw [Option.map_eq_none_iff, mapM_eq_none_iff]
    simp [InterfaceDocument.read]

/-- Two sets of defaults give the same network exactly when none of them is needed. -/
theorem NetworkDocument.read_eq_read_iff (h : Apart base base') (hptp : skipPtp ≠ skipPtp')
    {d : NetworkDocument} (hnamed : d.Named) :
    d.read base skipPtp = d.read base' skipPtp' ↔ d.Complete := by
  have hskip := getD_eq_getD_iff hptp d.skipPtp
  rw [Named] at hnamed
  rw [read, read]
  cases hinterfaces : d.interfaces with
  | none =>
    dsimp only
    rw [Option.some_inj, AppNetworkConfiguration.mk.injEq, eq_self_iff_true, true_and, hskip]
    exact ⟨fun h => ⟨by simp [hinterfaces], h⟩, fun h => h.skipPtp⟩
  | some entries =>
    rw [hinterfaces, Option.getD_some] at hnamed
    have hread (base : AppInterfaceConfiguration) : ∀ entry ∈ entries, entry.read base ≠ none :=
      fun entry hentry => Option.map_eq_none_iff.not.mpr (hnamed entry hentry)
    obtain ⟨interfaces, hbase⟩ := exists_mapM_eq_some (hread base)
    obtain ⟨interfaces', hbase'⟩ := exists_mapM_eq_some (hread base')
    have hentries := mapM_eq_mapM_iff (g := InterfaceDocument.read base') (hread base)
    rw [hbase, hbase', Option.some_inj] at hentries
    dsimp only
    rw [hbase, hbase', Option.map_some, Option.map_some, Option.some_inj,
      AppNetworkConfiguration.mk.injEq, Option.some_inj, hskip, hentries]
    have hcomplete : (∀ entry ∈ entries, entry.read base = entry.read base') ↔
        ∀ entry ∈ entries, entry.Complete :=
      forall₂_congr fun entry hentry => InterfaceDocument.read_eq_read_iff h (hnamed entry hentry)
    rw [hcomplete]
    constructor
    · rintro ⟨hall, hskip⟩
      exact ⟨by rwa [hinterfaces], hskip⟩
    · rintro ⟨hall, hskip⟩
      rw [hinterfaces] at hall
      exact ⟨hall, hskip⟩

end Fill

/-- **A document is read with the defaults of its sections** exactly when it gives no network, or
leaves nothing out of it; the list of interfaces may be left out.  Both ways refuse an interface
without a name. -/
theorem Document.deserialise_eq_filled_iff (d : Document) :
    d.deserialise = d.filled ↔
      ∀ network, d.network = some network → network.Named → network.Complete := by
  have hapart : Apart fieldDefaults .default := ⟨by decide, by decide, by decide⟩
  rw [deserialise, filled, read, read]
  cases d.network with
  | none => exact iff_of_true rfl nofun
  | some network =>
    dsimp only
    have hnetwork : (∀ n, some network = some n → n.Named → n.Complete) ↔
        (network.Named → network.Complete) := by simp
    rw [hnetwork]
    by_cases hnamed : network.Named
    · rw [NetworkDocument.read_eq_read_iff hapart (by decide) hnamed]
      exact ⟨fun h _ => h, fun h => h hnamed⟩
    · rw [NetworkDocument.read_eq_none_iff.mpr hnamed, NetworkDocument.read_eq_none_iff.mpr hnamed]
      exact iff_of_true rfl fun h => absurd h hnamed

/-! ## What is listened on -/

/-- Whether an interface enables the family of an address, if it says so. -/
def InterfaceDocument.enables (e : InterfaceDocument) : IpAddr → Option Bool
  | .v4 _ => e.ipv4
  | .v6 _ => e.ipv6

/-- The address of a record, if it is of a known family. -/
def InterfaceAddress.ip (ifaddr : InterfaceAddress) : Option IpAddr :=
  (sockaddrNixToStdnet ifaddr.address 0).map SocketAddr.ip

theorem ip_sockaddrNixToStdnet (maybeStorage : Option SockaddrStorage) (port port' : UInt16) :
    (sockaddrNixToStdnet maybeStorage port).map SocketAddr.ip
      = (sockaddrNixToStdnet maybeStorage port').map SocketAddr.ip := by
  rcases maybeStorage with _ | _ | _ | _ <;> rfl

/-- Lists whose elements agree on a test are searched alike. -/
theorem rel_find? {α β : Type} {R : α → β → Prop} {p : α → Bool} {q : β → Bool}
    (hpq : ∀ a b, R a b → p a = q b) {l : List α} {l' : List β} (h : List.Forall₂ R l l') :
    Option.Rel R (l.find? p) (l'.find? q) := by
  induction h with
  | nil => exact .none
  | @cons a b l l' hab _ ih =>
    rw [List.find?_cons, List.find?_cons, hpq a b hab]
    cases q b with
    | true => exact .some hab
    | false => exact ih

/-- The last configuration of a name, if there is a list of them. -/
theorem AppNetworkConfiguration.of_eq (config : AppNetworkConfiguration) (interfaceName : String) :
    config.of interfaceName
      = (config.interfaces.getD []).reverse.find? fun x => x.name == interfaceName := by
  rw [AppNetworkConfiguration.of, onlyInterfaces]
  cases config.interfaces with
  | none => rfl
  | some interfaces =>
    cases interfaces with
    | nil => rfl
    | cons ic interfaces => rfl

/-- The filter by name looks for a configuration. -/
theorem named_iff (config : AppNetworkConfiguration) (interfaceName : String) :
    (∀ interfaces, config.interfaces = some interfaces → interfaces ≠ [] →
        ∃ x ∈ interfaces, x.name = interfaceName) ↔
      (config.interfaces.getD [] ≠ [] → (config.of interfaceName).isSome) := by
  rw [config.of_eq, List.find?_isSome]
  cases config.interfaces <;> simp

namespace Document

/-- The interfaces that a document gives. -/
def entries (d : Document) : List InterfaceDocument :=
  (d.network.bind fun network => network.interfaces).getD []

/-- The last interface of a name. -/
def entry (d : Document) (interfaceName : String) : Option InterfaceDocument :=
  d.entries.reverse.find? fun e => e.name == some interfaceName

/-- Point-to-point links are skipped if no section is given, or if it says so. -/
def SkipsPtp (d : Document) : Prop :=
  ∀ network, d.network = some network → network.skipPtp = some true

/-- The document asks for an address: it gives no interfaces, or the one of the name enables the
family. -/
def Wants (d : Document) (interfaceName : String) (ip : IpAddr) : Prop :=
  d.entries ≠ [] → ∃ e, d.entry interfaceName = some e ∧ e.enables ip = some true

variable {d : Document} {config : AppNetworkConfiguration}

/-- What is read of the interfaces and of the links. -/
theorem deserialise_cases (h : d.deserialise = some config) :
    (config.skipPtp = true ↔ d.SkipsPtp) ∧
      List.Forall₂ (fun e ic => InterfaceDocument.read fieldDefaults e = some ic) d.entries
        (config.interfaces.getD []) := by
  rw [deserialise, read] at h
  rw [SkipsPtp, entries]
  cases hnetwork : d.network with
  | none =>
    rw [hnetwork] at h
    cases h
    exact ⟨iff_of_true rfl nofun, .nil⟩
  | some network =>
    rw [hnetwork] at h
    dsimp only at h
    rw [NetworkDocument.read] at h
    have hskip : network.skipPtp.getD false = true ↔
        ∀ n, some network = some n → n.skipPtp = some true := by
      cases hptp : network.skipPtp <;> simp [hptp]
    rw [← hskip, Option.bind_some]
    cases hinterfaces : network.interfaces with
    | none =>
      rw [hinterfaces] at h
      cases h
      exact ⟨Iff.rfl, .nil⟩
    | some entries =>
      rw [hinterfaces] at h
      obtain ⟨interfaces, hread, rfl⟩ := Option.map_eq_some_iff.mp h
      exact ⟨Iff.rfl, mapM_eq_some_iff.mp hread⟩

/-- The configuration of an interface is what is read of the last one of its name. -/
theorem rel_entry (h : d.deserialise = some config) (interfaceName : String) :
    Option.Rel (fun e ic => InterfaceDocument.read fieldDefaults e = some ic)
      (d.entry interfaceName) (config.of interfaceName) := by
  rw [config.of_eq]
  refine rel_find? (fun e ic hread => ?_) (List.forall₂_reverse_iff.mpr (deserialise_cases h).2)
  obtain ⟨name, hname, rfl⟩ := Option.map_eq_some_iff.mp hread
  rw [hname]
  rfl

/-- An address passes the filters by name and by family when the document asks for it. -/
theorem wants_iff (h : d.deserialise = some config) (interfaceName : String) (ip : IpAddr) :
    ((config.interfaces.getD [] ≠ [] → (config.of interfaceName).isSome) ∧
        ∀ ic, config.of interfaceName = some ic → ic.Enables ip) ↔
      d.Wants interfaceName ip := by
  have hempty : config.interfaces.getD [] = [] ↔ d.entries = [] := by
    rw [← List.length_eq_zero_iff, ← (deserialise_cases h).2.length_eq, List.length_eq_zero_iff]
  rw [ne_eq, hempty, Wants]
  have hrel := rel_entry h interfaceName
  cases hentry : d.entry interfaceName with
  | none =>
    rw [hentry] at hrel
    cases hof : config.of interfaceName with
    | none => simp
    | some ic =>
      rw [hof] at hrel
      cases hrel
  | some e =>
    rw [hentry] at hrel
    cases hof : config.of interfaceName with
    | none =>
      rw [hof] at hrel
      cases hrel
    | some ic =>
      rw [hof] at hrel
      cases hrel with
      | some hread =>
        have hne : d.entries ≠ [] := by
          intro hnil
          rw [entry, hnil] at hentry
          cases hentry
        obtain ⟨name, -, rfl⟩ := Option.map_eq_some_iff.mp hread
        have hfamily : AppInterfaceConfiguration.Enables ⟨name, e.port.getD fieldDefaults.port,
            e.ipv4.getD fieldDefaults.ipv4, e.ipv6.getD fieldDefaults.ipv6⟩ ip ↔
              e.enables ip = some true := by
          cases ip with
          | v4 ip => cases hipv4 : e.ipv4 <;>
              simp [AppInterfaceConfiguration.Enables, InterfaceDocument.enables, hipv4,
                fieldDefaults]
          | v6 ip => cases hipv6 : e.ipv6 <;>
              simp [AppInterfaceConfiguration.Enables, InterfaceDocument.enables, hipv6,
                fieldDefaults]
        simp [hne, hfamily]

/-- The port is the one that is given, zero if the interface leaves it out, and the default if there
is no such interface. -/
theorem port_eq (h : d.deserialise = some config) (interfaceName : String) :
    config.port interfaceName
      = ((d.entry interfaceName).map fun e => e.port.getD 0).getD defaultPort := by
  have hrel := rel_entry h interfaceName
  rw [AppNetworkConfiguration.port]
  generalize d.entry interfaceName = e at hrel ⊢
  generalize config.of interfaceName = ic at hrel ⊢
  cases hrel with
  | none => rfl
  | some hread =>
    obtain ⟨name, -, rfl⟩ := Option.map_eq_some_iff.mp hread
    rfl

end Document

/-- **What a document makes the program listen on**: the addresses of the interfaces that are up,
running and no loopback, of a family that is enabled by name, or all of them if no interface is
given.  Point-to-point links are skipped if no section is given, or if it says so.  An interface
that leaves out its port listens on port zero. -/
theorem listened_document_iff {d : Document} {config : AppNetworkConfiguration}
    (h : d.deserialise = some config) (ifaddr : InterfaceAddress) :
    (Listened config ifaddr ↔
      ifaddr.flags.up = true ∧ ifaddr.flags.running = true ∧ ifaddr.flags.loopback = false ∧
        (d.SkipsPtp → ifaddr.flags.pointopoint = false) ∧
        ∃ ip, ifaddr.ip = some ip ∧ ip.isLoopback = false ∧ d.Wants ifaddr.interfaceName ip) ∧
    config.port ifaddr.interfaceName
      = ((d.entry ifaddr.interfaceName).map fun e => e.port.getD 0).getD defaultPort := by
  refine ⟨⟨fun hlistened => ?_, ?_⟩, ?_⟩
  · obtain ⟨address, haddress, hloopback, henables⟩ := hlistened.address
    have hip := congrArg (Option.map SocketAddr.ip) haddress
    rw [ip_sockaddrNixToStdnet _ _ 0, Option.map_some] at hip
    have hnamed := (named_iff config ifaddr.interfaceName).mp hlistened.named
    exact ⟨hlistened.up, hlistened.running, hlistened.not_loopback,
      fun hskips => hlistened.not_skipped ((Document.deserialise_cases h).1.mpr hskips),
      address.ip, hip, hloopback, (Document.wants_iff h _ _).mp ⟨hnamed, henables⟩⟩
  · rintro ⟨hup, hrunning, hloop, hskips, ip, hip, hloopback, hwants⟩
    rw [InterfaceAddress.ip, ip_sockaddrNixToStdnet _ _ (config.port ifaddr.interfaceName),
      Option.map_eq_some_iff] at hip
    obtain ⟨address, haddress, rfl⟩ := hip
    obtain ⟨hnamed, henables⟩ := (Document.wants_iff h _ _).mpr hwants
    exact ⟨hup, hrunning, hloop, fun hskip => hskips ((Document.deserialise_cases h).1.mp hskip),
      (named_iff config _).mpr hnamed, address, haddress, hloopback, henables⟩
  · exact Document.port_eq h ifaddr.interfaceName

/-- A section with an interface that is given by its name alone. -/
def nameOnly : Document := ⟨some ⟨some [⟨some "eth0", none, none, none⟩], none⟩⟩

/-- It is not listened on. -/
theorem listened_document_nameOnly :
    ∃ config, nameOnly.deserialise = some config ∧
      ¬ Listened config (ipv4Record "eth0" noNul_eth0 ⟨#v[192, 168, 1, 10]⟩ netmask16) := by
  obtain ⟨config, hconfig⟩ : ∃ config, nameOnly.deserialise = some config := ⟨_, rfl⟩
  refine ⟨config, hconfig, fun hlistened => ?_⟩
  obtain ⟨-, -, -, -, ip, hip, -, hwants⟩ := (listened_document_iff hconfig _).1.mp hlistened
  obtain ⟨e, he, henables⟩ := hwants (List.cons_ne_nil _ _)
  cases he
  cases hip
  cases henables

end Echonet
