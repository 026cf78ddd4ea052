import EchonetBridge.Api.Errors
import EchonetBridge.Api.PropertyMapSet
import EchonetBridge.Api.Types
import EchonetBridge.Foundations.Rendering

/-!
# Api/Texts — what the values of the API are shown as

An error tells its property and what went wrong (`EpcError.display_injective`).  A property map is
shown by the codes that are enabled, so that maps which differ in their counts look the same, and
for debugging by all that it holds (`NodeObjectPropertyMap.shown_iff`).
-/

namespace Echonet

open Outcome Rendering

/-! ## Errors -/

namespace EpcError

/-- The text an EPC error is shown as. -/
def display : EpcError → String
  | invalidCode epc actualEpc =>
    s!"EPC({hexPadded 2 epc.toNat}): Actual code: {hexPadded 2 actualEpc.toNat}"
  | invalidValue epc msg => s!"EPC({hexPadded 2 epc.toNat}): Invalid value - {msg}"
  | invalidType epc => s!"EPC({hexPadded 2 epc.toNat}): Mismatched canonical type"
  | notAvailable epc => s!"EPC({hexPadded 2 epc.toNat}): EPC is not available on this device"
  | notSupported epc => s!"EPC({hexPadded 2 epc.toNat}): EPC is not supported on this object class"
  | operationNotAllowed epc =>
    s!"EPC({hexPadded 2 epc.toNat}): Operation not allowed by access rule"
  | operationNotImplemented epc =>
    s!"EPC({hexPadded 2 epc.toNat}): Operation not implemented by node"
  | noValue epc => s!"EPC({hexPadded 2 epc.toNat}): Value is not set"
  | valueTooLarge epc msg =>
    s!"EPC({hexPadded 2 epc.toNat}): Value is larger than the container maximum: {msg}"
  | validationFailed epc =>
    s!"EPC({hexPadded 2 epc.toNat}): Validation for internal representation failed"
  | typeConverstionError epc msg =>
    s!"EPC({hexPadded 2 epc.toNat}): Failed to convert internal type: {msg}"
  | valueError epc msg => s!"EPC({hexPadded 2 epc.toNat}): Failed to obtain value: {msg}"

/-- The property an error is about. -/
def epc : EpcError → UInt8
  | invalidCode epc _ | invalidValue epc _ | invalidType epc | notAvailable epc | notSupported epc
  | operationNotAllowed epc | operationNotImplemented epc | noValue epc | valueTooLarge epc _
  | validationFailed epc | typeConverstionError epc _ | valueError epc _ => epc

/-- What went wrong, as a number of a heading. -/
def kind : EpcError → ℕ
  | invalidCode _ _ => 0
  | invalidValue _ _ => 1
  | invalidType _ => 2
  | notAvailable _ => 3
  | notSupported _ => 4
  | operationNotAllowed _ => 5
  | operationNotImplemented _ => 6
  | noValue _ => 7
  | valueTooLarge _ _ => 8
  | validationFailed _ => 9
  | typeConverstionError _ _ => 10
  | valueError _ _ => 11

/-- What there is to say about it. -/
def detail : EpcError → String
  | invalidCode _ actualEpc => hexPadded 2 actualEpc.toNat
  | invalidValue _ msg | valueTooLarge _ msg | typeConverstionError _ msg | valueError _ msg => msg
  | _ => ""

/-- The headings, each behind the code of the property. -/
def heading (kind : ℕ) : String :=
  ["): Actual code: ", "): Invalid value - ", "): Mismatched canonical type",
    "): EPC is not available on this device", "): EPC is not supported on this object class",
    "): Operation not allowed by access rule", "): Operation not implemented by node",
    "): Value is not set", "): Value is larger than the container maximum: ",
    "): Validation for internal representation failed", "): Failed to convert internal type: ",
    "): Failed to obtain value: "].getD kind ""

theorem kind_lt (e : EpcError) : e.kind < 12 := by
  cases e <;> exact Nat.le_of_ble_eq_true rfl

theorem diverge_heading : ∀ j < 12, ∀ i < j, Diverge (heading i).toList (heading j).toList := by
  decide +kernel

theorem display_eq (e : EpcError) :
    e.display = "EPC(" ++ hexPadded 2 e.epc.toNat ++ heading e.kind ++ e.detail := by
  cases e with
  | invalidCode | invalidValue | valueTooLarge | typeConverstionError | valueError => rfl
  | _ => exact String.append_empty.symm

theorem eq_of_kind {e e' : EpcError} (hkind : e.kind = e'.kind) (hepc : e.epc = e'.epc)
    (hdetail : e.detail = e'.detail) : e = e' := by
  cases e <;> cases e' <;> try cases hkind
  all_goals simp_all [epc, detail, hexPadded_two_inj]

/-- **Errors are told apart** by their texts, which name their property. -/
theorem display_injective : Function.Injective display := by
  intro e e' h
  rw [display_eq, display_eq, ← String.toList_inj] at h
  simp only [String.toList_append, List.append_assoc] at h
  obtain ⟨hepc, h⟩ := selfDelimiting_hexByte.split (List.append_cancel_left h)
  obtain ⟨hkind, hdetail⟩ := heading_inj diverge_heading (kind_lt e) (kind_lt e') h
  exact eq_of_kind hkind hepc (String.toList_inj.mp hdetail)

end EpcError

/-! ## Objects -/

/-- The text an object's address is shown as. -/
def EOJ.display (eoj : EOJ) : String :=
  "group: 0x" ++ hexPadded 2 eoj.classGroupCode.toNat ++ " class: 0x" ++
    hexPadded 2 eoj.classCode.toNat ++ " instance: 0x" ++ hexPadded 2 eoj.instanceCode.toNat

theorem EOJ.selfDelimiting_display : SelfDelimiting fun eoj : EOJ => eoj.display.toList := by
  intro eoj eoj' s t h
  delta EOJ.display at h
  simp only [String.toList_append, List.append_assoc] at h
  obtain ⟨hgroup, h⟩ := selfDelimiting_hexByte.split (List.append_cancel_left h)
  obtain ⟨hclass, h⟩ := selfDelimiting_hexByte.split (List.append_cancel_left h)
  obtain ⟨hinst, -⟩ := selfDelimiting_hexByte.split (List.append_cancel_left h)
  cases eoj
  cases eoj'
  cases hgroup
  cases hclass
  cases hinst
  rfl

/-! ## Versions -/

namespace NodeProfileObjectEchonetLiteSupportedVersion

/-- The text of a version. -/
def version (self : NodeProfileObjectEchonetLiteSupportedVersion) : String :=
  self.majorVersion.toNat.repr ++ "." ++ self.minorVersion.toNat.repr

/-- A version in print tells both of its numbers. -/
theorem version_inj {v v' : NodeProfileObjectEchonetLiteSupportedVersion} :
    v.version = v'.version ↔
      v.majorVersion = v'.majorVersion ∧ v.minorVersion = v'.minorVersion := by
  refine ⟨fun h => ?_, fun ⟨hmajor, hminor⟩ => by rw [version, version, hmajor, hminor]⟩
  rw [version, version, ← String.toList_inj] at h
  simp only [String.toList_append, List.append_assoc] at h
  have hdot (s : List Char) : ∃ c ∈ (".".toList ++ s).head?, ¬ c.isDigit = true :=
    ⟨'.', rfl, by decide⟩
  have hmajor := endsBefore_decimal _ _ _ _ (hdot _) (hdot _) h
  rw [hmajor] at h
  have hminor := decimal_injective (List.append_cancel_left (List.append_cancel_left h))
  exact ⟨UInt8.toNat_inj.mp hmajor, UInt8.toNat_inj.mp hminor⟩

end NodeProfileObjectEchonetLiteSupportedVersion

/-! ## Property maps -/

namespace NodeObjectPropertyMap

/-- The text a property map is shown as: its list of operations. -/
def display (m : NodeObjectPropertyMap) : Outcome Empty String := do
  let operations ← m.asOperationsList
  pure ("property map(operations=[" ++
    String.intercalate ", " (operations.map fun c => c.toNat.repr) ++ "])")

/-- A row in print: the first code, and the bits of its two bytes. -/
def rowText (i : ℕ) (word : UInt16) : String :=
  "operation[" ++ hexPadded 2 i ++ "]: \"" ++ hexPadded 2 ((i <<< 4) + 0x80) ++ ": " ++
    binPadded 8 ((word &&& 0xff00) >>> 8).toNat ++ " " ++ binPadded 8 (word &&& 0xff).toNat ++ "\""

/-- Display for debugging: the count and the eight rows. -/
def debug (m : NodeObjectPropertyMap) : Outcome Empty String := do
  let fields ← (List.range 8).foldlM (fun fields i => do
    let word ← entry m.operations i
    pure (fields ++ ", " ++ rowText i word)) ("operations_count: " ++ m.operationsCount.repr)
  pure ("NodeObjectPropertyMap \x7b " ++ fields ++ " \x7d")

variable (m : NodeObjectPropertyMap)

/-- The enabled codes, in order. -/
def enabled : List UInt8 := codes.filter fun c => bitAt m.operations (slot c)

theorem enabled_inj {m m' : NodeObjectPropertyMap} :
    m.enabled = m'.enabled ↔ m.operations = m'.operations := by
  refine ⟨fun h => words_ext fun k hk => ?_, fun h => by rw [enabled, enabled, h]⟩
  have hmem : codeOf k ∈ m.enabled ↔ codeOf k ∈ m'.enabled := by rw [h]
  rw [enabled, enabled, List.mem_filter, List.mem_filter, slot_codeOf hk] at hmem
  have hcode := mem_codes.mpr (le_codeOf hk)
  rwa [and_iff_right hcode, and_iff_right hcode, ← Bool.eq_iff_iff] at hmem

theorem display_eq : m.display = .ok ("property map(operations=[" ++
    String.intercalate ", " (m.enabled.map fun c => c.toNat.repr) ++ "])") := by
  rw [display, asOperationsList_eq, ok_bind, enabled]
  rfl

/-- Lists of codes end with a bracket. -/
theorem selfDelimiting_codes :
    SelfDelimiting (listed ", ".toList "])".toList fun c : UInt8 => c.toNat.repr.toList) :=
  (endsBefore_decimal.comp fun _ _ => UInt8.toNat_inj.mp).listed (by decide)
    (fun _ => ⟨',', rfl, by decide⟩) (fun _ => ⟨']', rfl, by decide⟩)
    fun c => diverge_decimal c.toNat ⟨']', rfl, by decide⟩

theorem display_eq_iff {m m' : NodeObjectPropertyMap} :
    m.display = m'.display ↔ m.operations = m'.operations := by
  rw [display_eq, display_eq, Outcome.ok.injEq, ← enabled_inj]
  refine ⟨fun h => ?_, fun h => by rw [h]⟩
  rw [← String.toList_inj] at h
  simp only [String.toList_append, String.toList_intercalate, List.map_map, List.append_assoc,
    Function.comp_def, intercalate_append] at h
  exact selfDelimiting_codes.injective (List.append_cancel_left h)

/-! ## Rows for debugging -/

theorem toNat_highByte (word : UInt16) :
    ((word &&& 0xff00) >>> 8).toNat = (word >>> 8).toUInt8.toNat := by
  rw [UInt16.toNat_shiftRight, UInt16.toNat_and, UInt16.toNat_toUInt8, UInt16.toNat_shiftRight]
  change (word.toNat &&& 0xff00) >>> 8 = word.toNat >>> 8 % 256
  rw [Nat.shiftRight_and_distrib]
  exact Nat.and_two_pow_sub_one_eq_mod _ 8

theorem toNat_lowByte (word : UInt16) : (word &&& 0xff).toNat = word.toUInt8.toNat := by
  rw [UInt16.toNat_and, UInt16.toNat_toUInt8]
  exact Nat.and_two_pow_sub_one_eq_mod _ 8

/-- A word is its two bytes. -/
theorem word_ext {word word' : UInt16} (hhigh : (word >>> 8).toUInt8 = (word' >>> 8).toUInt8)
    (hlow : word.toUInt8 = word'.toUInt8) : word = word' := by
  rw [← UInt8.toNat_inj, UInt16.toNat_toUInt8, UInt16.toNat_toUInt8] at hhigh hlow
  rw [UInt16.toNat_shiftRight, UInt16.toNat_shiftRight] at hhigh
  change word.toNat >>> 8 % 256 = word'.toNat >>> 8 % 256 at hhigh
  rw [Nat.shiftRight_eq_div_pow, Nat.shiftRight_eq_div_pow] at hhigh
  have hlt := word.toNat_lt
  have hlt' := word'.toNat_lt
  exact UInt16.toNat_inj.mp (by omega)

theorem selfDelimiting_rowText (i : ℕ) :
    SelfDelimiting fun word => ", ".toList ++ (rowText i word).toList := by
  apply SelfDelimiting.before
  intro word word' s t h
  delta rowText at h
  simp only [toNat_highByte, toNat_lowByte, String.toList_append, List.append_assoc] at h
  iterate 5 replace h := List.append_cancel_left h
  obtain ⟨hhigh, h⟩ := selfDelimiting_binByte.split h
  obtain ⟨hlow, -⟩ := selfDelimiting_binByte.split (List.append_cancel_left h)
  exact word_ext hhigh hlow

/-- A word by its number. -/
def word (i : ℕ) : UInt16 := m.operations[i]?.getD 0

/-- The rows in print. -/
def rowsText : List Char :=
  (List.range 8).flatMap fun i => ", ".toList ++ (rowText i (m.word i)).toList

theorem debug_eq : ∃ text, m.debug = .ok text ∧ text.toList =
    "NodeObjectPropertyMap \x7b operations_count: ".toList ++
      (m.operationsCount.repr.toList ++ (m.rowsText ++ " \x7d".toList)) := by
  obtain ⟨fields, hloop, hfields⟩ := foldlM_range_rule
    (fun fields i => (do
      let word ← entry m.operations i
      pure (fields ++ ", " ++ rowText i word) : Outcome Empty String))
    (fun n fields => fields.toList = "operations_count: ".toList ++
      (m.operationsCount.repr.toList ++
        (List.range n).flatMap fun i => ", ".toList ++ (rowText i (m.word i)).toList))
    8 ("operations_count: " ++ m.operationsCount.repr)
    (by rw [String.toList_append, List.range_zero, List.flatMap_nil, List.append_nil])
    fun i hi fields hfields => by
      have hword : m.word i = m.operations[i] := by
        rw [word, Vector.getElem?_eq_getElem hi, Option.getD_some]
      refine ⟨_, by rw [entry_of_lt hi, ok_bind]; rfl, ?_⟩
      rw [String.toList_append, String.toList_append, hfields, List.range_succ,
        List.flatMap_append, List.flatMap_singleton, hword]
      simp only [List.append_assoc]
  refine ⟨"NodeObjectPropertyMap \x7b " ++ fields ++ " \x7d",
    by rw [debug, hloop, ok_bind]; rfl, ?_⟩
  have hprefix : "NodeObjectPropertyMap \x7b operations_count: ".toList
      = "NodeObjectPropertyMap \x7b ".toList ++ "operations_count: ".toList := by decide
  rw [String.toList_append, String.toList_append, hfields, hprefix, rowsText]
  simp only [List.append_assoc]

theorem debug_eq_iff {m m' : NodeObjectPropertyMap} : m.debug = m'.debug ↔ m = m' := by
  refine ⟨fun h => ?_, fun h => by rw [h]⟩
  obtain ⟨text, hdebug, htext⟩ := m.debug_eq
  obtain ⟨text', hdebug', htext'⟩ := m'.debug_eq
  rw [hdebug, hdebug', Outcome.ok.injEq] at h
  rw [h, htext'] at htext
  have htext := List.append_cancel_left htext
  have hfollow (m : NodeObjectPropertyMap) :
      ∃ c ∈ (m.rowsText ++ " \x7d".toList).head?, ¬ c.isDigit = true := ⟨',', rfl, by decide⟩
  have hcount := endsBefore_decimal _ _ _ _ (hfollow m') (hfollow m) htext
  rw [hcount] at htext
  have hrows := eq_of_flatMap_range selfDelimiting_rowText (List.append_cancel_left htext)
  have hoperations : m'.operations = m.operations := by
    refine Vector.ext fun i hi => ?_
    have hi' := hrows i hi
    rwa [word, word, Vector.getElem?_eq_getElem hi, Vector.getElem?_eq_getElem hi] at hi'
  cases m
  cases m'
  cases hcount
  cases hoperations
  rfl

/-- **What a map is shown as** tells which codes are enabled, and not what is counted; what it is
shown as for debugging tells both.  Neither panics. -/
theorem shown_iff (m m' : NodeObjectPropertyMap) :
    IsOk m.display ∧ IsOk m.debug ∧ (m.display = m'.display ↔ m.operations = m'.operations) ∧
      (m.debug = m'.debug ↔ m = m') := by
  obtain ⟨text, hdebug, -⟩ := m.debug_eq
  exact ⟨⟨_, m.display_eq⟩, ⟨text, hdebug⟩, display_eq_iff, debug_eq_iff⟩

end NodeObjectPropertyMap

end Echonet
