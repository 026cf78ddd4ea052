import EchonetBridge.Epc.Factory
import EchonetBridge.Epc.Contract
import EchonetBridge.Epc.RoundTrip

/-!
# Epc/PropertyMaps — the property maps of an object, as properties

The validator of a property map sees the payload behind its header, the parser sees the payload
alone, and they do not agree on its length: `propertyMap_set_iff` says on which payloads they do.
The encoder leaves no room for the header, which then replaces the first two bytes of the map, so
that no map makes a round trip (`propertyMap_never_roundTrips`).
-/

namespace Echonet

open Outcome

/-! ## Accepting a map -/

/-- The payloads on which the validator and the parser agree.  The validator accepts one to fifteen
bytes, whatever they are. -/
def MapVerdictsAgree (payload : List UInt8) : Prop :=
  (0 < payload.length → payload.length < 16 → NodeObjectPropertyMap.IsCodeList payload) ∧
  (payload.length = 16 → ¬ NodeObjectPropertyMap.IsCodeList payload) ∧
  (payload.length = 17 → ¬ NodeObjectPropertyMap.IsBitmap payload)

theorem isOk_propertyMapValidator (r : EpcRef NodeObjectPropertyMap) (epc : UInt8)
    (payload : List UInt8) :
    IsOk (propertyMapValidator r (frame epc payload)) ↔
      0 < payload.length ∧ payload.length < 16 := by
  rw [propertyMapValidator_eq]
  split_ifs with h
  · exact iff_of_true (isOk_ok _) h
  · exact iff_of_false (not_isOk_err _) h

theorem mapVerdictsAgree_iff (payload : List UInt8) :
    (0 < payload.length ∧ payload.length < 16 ↔
        IsOk (NodeObjectPropertyMap.fromBytes payload)) ↔ MapVerdictsAgree payload := by
  rw [NodeObjectPropertyMap.isOk_fromBytes_iff, MapVerdictsAgree]
  have hbitmap := fun h : NodeObjectPropertyMap.IsBitmap payload => h.length_eq
  have hlist : NodeObjectPropertyMap.IsCodeList payload → 0 < payload.length := by
    rintro ⟨_, _, rfl, -⟩
    exact Nat.succ_pos _
  constructor
  · intro h
    refine ⟨fun hpos hlt => ?_, fun hlen hcodes => ?_, fun hlen hbits => ?_⟩
    · exact ((h.mp ⟨hpos, hlt⟩).resolve_right fun hbits => by have := hbitmap hbits; omega).2
    · have := h.mpr (Or.inl ⟨hlen.le, hcodes⟩)
      omega
    · have := h.mpr (Or.inr hbits)
      omega
  · rintro ⟨hshort, hsixteen, hseventeen⟩
    refine ⟨fun ⟨hpos, hlt⟩ => Or.inl ⟨hlt.le, hshort hpos hlt⟩, ?_⟩
    rintro (⟨hle, hcodes⟩ | hbits)
    · exact ⟨hlist hcodes, Nat.lt_of_le_of_ne hle fun hlen => hsixteen hlen hcodes⟩
    · exact absurd hbits (hseventeen (hbitmap hbits))

/-- **A property map accepts the wire format of property maps** exactly on the payloads on which its
validator and the parser agree. -/
theorem propertyMap_set_iff (name : String) (epc : UInt8) (source : UInt16) (announce : Bool)
    (getOperation setOperation : EpcAccessRule) :
    ∃ p, propertyMapProperty name epc source announce getOperation setOperation
        = .ok ⟨NodeObjectPropertyMap, p⟩ ∧
      ∀ cells payload now,
        (IsOk (p.set cells payload now).1 ↔ IsOk (NodeObjectPropertyMap.fromBytes payload)) ↔
          MapVerdictsAgree payload := by
  refine ⟨_, rfl, fun cells payload now => ?_⟩
  rw [StaticNodeProperty.isOk_set, ← mapVerdictsAgree_iff]
  exact iff_congr (isOk_propertyMapValidator _ _ _) Iff.rfl

/-- A bitmap is refused, and a list with the wrong number of codes is stored. -/
theorem propertyMap_misjudges :
    ∃ p, hostFactory classProfileNodeProfile epcGetPropertyMap = .ok ⟨NodeObjectPropertyMap, p⟩ ∧
      ¬ IsOk (p.set .fresh (0x10 :: List.replicate 16 0x01) ⟨1, by decide⟩).1 ∧
      IsOk (NodeObjectPropertyMap.fromBytes (0x10 :: List.replicate 16 0x01)) ∧
      IsOk (p.set .fresh [0x02, 0x80] ⟨1, by decide⟩).1 ∧
      ¬ IsOk (NodeObjectPropertyMap.fromBytes [0x02, 0x80]) := by
  refine ⟨_, rfl, ?_, ?_, ⟨_, rfl⟩, ?_⟩
  · exact fun h => absurd ((isOk_propertyMapValidator _ _ _).mp
      ((StaticNodeProperty.isOk_set _ _ _).mp h)).2 (by decide)
  · exact (NodeObjectPropertyMap.isOk_fromBytes_bitmap (by decide) _).mpr ⟨rfl, by decide⟩
  · exact fun h => absurd ((NodeObjectPropertyMap.isOk_fromBytes_list (by decide) _).mp h).1
      (by decide)

/-! ## Storing a map -/

/-- The header replaces the first two bytes of the map. -/
theorem get_of_propertyMap_accepted {p : StaticNodeProperty NodeObjectPropertyMap}
    (henc : p.fromCanonicalFn = propertyMapFromCanonical) {cells : Cells}
    {m : NodeObjectPropertyMap} {now : ClockReading}
    (h : (p.fromCanonical cells m now).1 = .ok ()) :
    ∃ wire, (m.decode : Outcome EpcError (List UInt8)) = .ok wire ∧ 2 ≤ wire.length ∧
      p.get (p.fromCanonical cells m now).2 = .ok (wire.drop 2) := by
  obtain ⟨wire, hwire, hlen, hstored⟩ := p.fromCanonical_eq_ok h
  rw [henc] at hwire
  exact ⟨wire, hwire, hlen, by rw [hstored, p.get_frame]⟩

/-- **No property map survives its property**: what `get` returns is never what `decode` returned,
as two bytes of it are gone. -/
theorem propertyMap_never_roundTrips (name : String) (epc : UInt8) (source : UInt16)
    (announce : Bool) (getOperation setOperation : EpcAccessRule) :
    ∃ p, propertyMapProperty name epc source announce getOperation setOperation
        = .ok ⟨NodeObjectPropertyMap, p⟩ ∧
      ∀ cells m now, ¬ ∃ wire, (m.decode : Outcome EpcError (List UInt8)) = .ok wire ∧
        p.RoundTrip cells m now wire (· = m) := by
  refine ⟨_, rfl, fun cells m now ⟨wire, hwire, htrip⟩ => ?_⟩
  obtain ⟨wire', hwire', hlen, hget⟩ := get_of_propertyMap_accepted rfl htrip.accepted
  rw [hwire'] at hwire
  cases hwire
  rw [htrip.get_eq] at hget
  have hdrop := congrArg List.length (Outcome.ok.inj hget)
  rw [List.length_drop] at hdrop
  omega

/-- The map of `0x80` and `0x81` is stored as the payload `0x81` alone. -/
theorem two_codes_lose_one :
    ∃ p, hostFactory classProfileNodeProfile epcGetPropertyMap = .ok ⟨NodeObjectPropertyMap, p⟩ ∧
      ∃ m, m = ((NodeObjectPropertyMap.new.enableOperation 0x80).2.enableOperation 0x81).2 ∧
        (m.decode : Outcome EpcError (List UInt8)) = .ok [0x02, 0x80, 0x81] ∧
        (p.fromCanonical .fresh m ⟨1, by decide⟩).1 = .ok () ∧
        p.get (p.fromCanonical .fresh m ⟨1, by decide⟩).2 = .ok [0x81] ∧
        ¬ p.RoundTrip .fresh m ⟨1, by decide⟩ [0x02, 0x80, 0x81] (· = m) := by
  refine ⟨_, rfl, _, rfl, by rfl, by rfl, by rfl, fun htrip => ?_⟩
  exact absurd htrip.get_eq (by decide)

end Echonet
