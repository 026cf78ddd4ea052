import EchonetBridge.Api.PropertyMapBits
import EchonetBridge.Foundations.Machine

/-!
# Api/PropertyMapSet — the map is a finite set of codes

A `CodeSet` is what a property map stands for: a finite set of codes from `0x80` on.  `Family` runs
commands on any number of maps side by side, so that one can be copied from another at any point of
its life; the same commands run on code sets, and the two machines are in simulation
(`propertyMap_refines_codeSet`).
-/

namespace Echonet

open Outcome NodeObjectPropertyMap

/-! ## The abstract component -/

/-- A finite set of valid codes. -/
structure CodeSet where
  codes : Finset UInt8
  valid : ∀ c ∈ codes, 0x80 ≤ c

namespace CodeSet

instance : Membership UInt8 CodeSet := ⟨fun S c => c ∈ S.codes⟩

instance (c : UInt8) (S : CodeSet) : Decidable (c ∈ S) := inferInstanceAs (Decidable (c ∈ S.codes))

def empty : CodeSet := ⟨∅, fun _ h => absurd h (Finset.notMem_empty _)⟩

@[simp] theorem notMem_empty (c : UInt8) : c ∉ empty := Finset.notMem_empty c

/-- Add a code; the reply says whether it was absent. -/
def enable (S : CodeSet) (c : UInt8) : Outcome MiddlewareError Bool × CodeSet :=
  if h : c < 0x80 then (.err invalidOperation, S)
  else (.ok (decide (c ∉ S)), ⟨insert c S.codes, fun d hd => by
    rcases Finset.mem_insert.mp hd with rfl | hd
    · exact UInt8.not_lt.mp h
    · exact S.valid d hd⟩)

/-- Remove a code; the reply says whether it was present. -/
def disable (S : CodeSet) (c : UInt8) : Outcome MiddlewareError Bool × CodeSet :=
  if c < 0x80 then (.err invalidOperation, S)
  else (.ok (decide (c ∈ S)), ⟨S.codes.erase c, fun d hd => S.valid d (Finset.mem_of_mem_erase hd)⟩)

/-- Remove every code; the reply says whether there was one. -/
def disableAll (S : CodeSet) : Outcome MiddlewareError Bool × CodeSet :=
  (.ok (decide S.codes.Nonempty), empty)

end CodeSet

/-! ## Families of maps -/

/-- A command on a family of maps named by `κ`. -/
inductive MapCommand (κ : Type) where
  | enableOperation (k : κ) (operation : UInt8)
  | disableOperation (k : κ) (operation : UInt8)
  | disableAll (k : κ)
  | copyFrom (k other : κ)

namespace MapCommand

variable {κ : Type} [DecidableEq κ]

/-- A command on property maps, with the reply of the call it makes. -/
def exec (σ : κ → NodeObjectPropertyMap) :
    MapCommand κ → Option (Outcome MiddlewareError Bool) × (κ → NodeObjectPropertyMap)
  | enableOperation k operation =>
    (some ((σ k).enableOperation operation).1,
      Function.update σ k ((σ k).enableOperation operation).2)
  | disableOperation k operation =>
    (some ((σ k).disableOperation operation).1,
      Function.update σ k ((σ k).disableOperation operation).2)
  | disableAll k => (some (σ k).disableAll.1, Function.update σ k (σ k).disableAll.2)
  | copyFrom k other => (none, Function.update σ k ((σ k).copyFrom (σ other)))

/-- The same command on code sets. -/
def execSpec (S : κ → CodeSet) :
    MapCommand κ → Option (Outcome MiddlewareError Bool) × (κ → CodeSet)
  | enableOperation k operation =>
    (some ((S k).enable operation).1, Function.update S k ((S k).enable operation).2)
  | disableOperation k operation =>
    (some ((S k).disable operation).1, Function.update S k ((S k).disable operation).2)
  | disableAll k => (some (S k).disableAll.1, Function.update S k (S k).disableAll.2)
  | copyFrom k other => (none, Function.update S k (S other))

end MapCommand

/-! ## The refinement relation -/

/-- A counted map stands for the set of the codes whose bit is set. -/
structure Represents (m : NodeObjectPropertyMap) (S : CodeSet) : Prop where
  counted : m.Counted
  bit_iff : ∀ c : UInt8, 0x80 ≤ c → (bitAt m.operations (slot c) = true ↔ c ∈ S)

namespace Represents

variable {m : NodeObjectPropertyMap} {S : CodeSet}

theorem new_empty : Represents new CodeSet.empty where
  counted := setBits_zero.symm
  bit_iff c _ := by
    rw [new, bitAt_zero]
    exact iff_of_false Bool.false_ne_true (CodeSet.notMem_empty c)

/-- A code whose bit is not set is not in the set. -/
theorem not_mem_of_bit (h : Represents m S) {c : UInt8} (hc : 0x80 ≤ c)
    (hbit : bitAt m.operations (slot c) = false) : c ∉ S := by
  intro hmem
  rw [(h.bit_iff c hc).mpr hmem] at hbit
  cases hbit

/-- Adding a code's bit adds the code. -/
theorem insert_bit (h : Represents m S) {c : UInt8} (hc : 0x80 ≤ c) {v : Vector UInt16 8}
    (hv : ∀ k, bitAt v k = (bitAt m.operations k || k == slot c)) {T : CodeSet}
    (hT : ∀ d, d ∈ T ↔ d = c ∨ d ∈ S) (d : UInt8) (hd : 0x80 ≤ d) :
    bitAt v (slot d) = true ↔ d ∈ T := by
  rw [hv, Bool.or_eq_true, beq_iff_eq, h.bit_iff d hd, hT, or_comm]
  exact or_congr ⟨slot_injOn hd hc, fun hdc => by rw [hdc]⟩ Iff.rfl

theorem enable (h : Represents m S) (operation : UInt8) :
    (m.enableOperation operation).1 = (S.enable operation).1 ∧
      Represents (m.enableOperation operation).2 (S.enable operation).2 := by
  rcases UInt8.lt_or_le operation 0x80 with hlt | hle
  · rw [enableOperation_of_lt m hlt, CodeSet.enable, dif_pos hlt]
    exact ⟨rfl, h⟩
  rw [CodeSet.enable, dif_neg (UInt8.not_lt.mpr hle)]
  rcases enableOperation_spec m hle with ⟨hbit, heq⟩ | ⟨hbit, v, hv, heq⟩
  · have hmem : operation ∈ S := (h.bit_iff operation hle).mp hbit
    rw [heq]
    refine ⟨by simp [hmem], h.counted, fun d hd => ?_⟩
    rw [h.bit_iff d hd]
    exact ⟨fun hd => Finset.mem_insert_of_mem hd, fun hd => by
      rcases Finset.mem_insert.mp hd with rfl | hd
      · exact hmem
      · exact hd⟩
  · have hmem : operation ∉ S := h.not_mem_of_bit hle hbit
    rw [heq]
    refine ⟨by simp [hmem], ?_, h.insert_bit hle hv fun d => Finset.mem_insert⟩
    rw [Counted, setBits_insert (slot_lt operation) hv hbit, ← h.counted]

theorem disable (h : Represents m S) (operation : UInt8) :
    (m.disableOperation operation).1 = (S.disable operation).1 ∧
      Represents (m.disableOperation operation).2 (S.disable operation).2 := by
  rcases UInt8.lt_or_le operation 0x80 with hlt | hle
  · rw [disableOperation_of_lt m hlt, CodeSet.disable, if_pos hlt]
    exact ⟨rfl, h⟩
  rw [CodeSet.disable, if_neg (UInt8.not_lt.mpr hle)]
  rcases disableOperation_spec m hle with ⟨hbit, heq⟩ | ⟨hbit, v, hv, heq⟩
  · have hmem : operation ∉ S := h.not_mem_of_bit hle hbit
    rw [heq]
    refine ⟨by simp [hmem], h.counted, fun d hd => ?_⟩
    rw [h.bit_iff d hd]
    exact ⟨fun hd => Finset.mem_erase.mpr ⟨fun hdo => hmem (hdo ▸ hd), hd⟩,
      fun hd => Finset.mem_of_mem_erase hd⟩
  · have hmem : operation ∈ S := (h.bit_iff operation hle).mp hbit
    have hcount := setBits_erase (slot_lt operation) hv hbit
    have hne : m.operationsCount ≠ 0 := fun h0 => by
      have := h.counted
      rw [Counted, h0, hcount] at this
      omega
    rw [heq, if_neg hne]
    refine ⟨by simp [hmem], ?_, fun d hd => ?_⟩
    · have := h.counted
      rw [Counted] at this ⊢
      simp only
      omega
    · rw [hv, Bool.and_eq_true, bne_iff_ne, h.bit_iff d hd]
      refine and_comm.trans (Iff.trans ?_ Finset.mem_erase.symm)
      exact and_congr (not_congr ⟨slot_injOn hd hle, fun hdo => by rw [hdo]⟩) Iff.rfl

/-- The count is positive exactly when the set has a code. -/
theorem count_pos_iff (h : Represents m S) : m.operationsCount > 0 ↔ S.codes.Nonempty := by
  have hcount := h.counted
  rw [Counted, setBits_eq_card] at hcount
  rw [gt_iff_lt, hcount, Finset.card_pos]
  constructor
  · rintro ⟨k, hk⟩
    obtain ⟨hlt, hbit⟩ := mem_enabledSlots.mp hk
    refine ⟨codeOf k, (h.bit_iff _ (le_codeOf hlt)).mp ?_⟩
    rw [slot_codeOf hlt]
    exact hbit
  · rintro ⟨c, hc⟩
    exact ⟨slot c, mem_enabledSlots.mpr ⟨slot_lt c, (h.bit_iff c (S.valid c hc)).mpr hc⟩⟩

theorem disableAll (h : Represents m S) :
    m.disableAll.1 = S.disableAll.1 ∧ Represents m.disableAll.2 S.disableAll.2 := by
  rw [NodeObjectPropertyMap.disableAll, CodeSet.disableAll]
  by_cases hpos : m.operationsCount > 0
  · rw [if_pos hpos]
    exact ⟨by simp [h.count_pos_iff.mp hpos], new_empty⟩
  · rw [if_neg hpos]
    have hempty : ¬ S.codes.Nonempty := fun hne => hpos (h.count_pos_iff.mpr hne)
    refine ⟨by simp [hempty], h.counted, fun c hc => ?_⟩
    rw [h.bit_iff c hc]
    exact iff_of_false (fun hmem => hempty ⟨c, hmem⟩) (CodeSet.notMem_empty c)

theorem copyFrom {other : NodeObjectPropertyMap} {T : CodeSet} (h : Represents other T) :
    Represents (m.copyFrom other) T := h

/-- Reading one code is membership. -/
theorem isOperationEnabled (h : Represents m S) (operation : UInt8) :
    m.isOperationEnabled operation =
      if operation < 0x80 then .err invalidOperation else .ok (decide (operation ∈ S)) := by
  split_ifs with hlt
  · exact isOperationEnabled_of_lt m hlt
  · have hle := UInt8.not_lt.mp hlt
    rw [isOperationEnabled_of_le m hle]
    refine congrArg Outcome.ok (Bool.eq_iff_iff.mpr ?_)
    rw [h.bit_iff operation hle, decide_eq_true_iff]

end Represents

/-! ## Listing the codes -/

theorem mem_codes {c : UInt8} : c ∈ NodeObjectPropertyMap.codes ↔ 0x80 ≤ c := by
  rw [NodeObjectPropertyMap.codes, List.mem_map]
  constructor
  · rintro ⟨k, hk, rfl⟩
    exact le_codeOf (List.mem_range.mp hk)
  · exact fun hc => ⟨slot c, List.mem_range.mpr (slot_lt c), codeOf_slot hc⟩

theorem pairwise_codes : NodeObjectPropertyMap.codes.Pairwise (· < ·) := by
  rw [NodeObjectPropertyMap.codes, List.pairwise_map]
  refine List.pairwise_lt_range.imp_of_mem fun {a b} ha hb hab => ?_
  have ha' := toNat_codeOf (List.mem_range.mp ha)
  have hb' := toNat_codeOf (List.mem_range.mp hb)
  rw [codeOf] at ha' hb'
  rw [UInt8.lt_iff_toNat_lt, ha', hb']
  exact Nat.add_lt_add_left hab 0x80

/-- The list is the valid codes, filtered by their bit. -/
theorem asOperationsList_eq {ε : Type} (m : NodeObjectPropertyMap) :
    (m.asOperationsList : Outcome ε (List UInt8))
      = .ok (NodeObjectPropertyMap.codes.filter fun c => bitAt m.operations (slot c)) := by
  obtain ⟨l, hl, rfl⟩ := foldlM_rule
    (fun opsList i => (do
      if ← m.isOperationEnabledUnsafe i then pure (opsList ++ [i]) else pure opsList :
        Outcome ε (List UInt8)))
    (fun pre opsList => opsList = pre.filter fun c => bitAt m.operations (slot c))
    NodeObjectPropertyMap.codes [] rfl fun pre c post opsList hl hinv => by
      have hc : 0x80 ≤ c := mem_codes.mp (hl ▸ by simp)
      rw [isOperationEnabledUnsafe_of_le m hc, ok_bind]
      cases hb : bitAt m.operations (slot c)
      · exact ⟨opsList, rfl, by rw [hinv, List.filter_append]; simp [hb]⟩
      · exact ⟨opsList ++ [c], rfl, by rw [hinv, List.filter_append]; simp [hb]⟩
  exact hl

/-- A map that stands for a set lists its members in strictly ascending order. -/
theorem Represents.asOperationsList {m : NodeObjectPropertyMap} {S : CodeSet} {ε : Type}
    (h : Represents m S) : ∃ l : List UInt8, (m.asOperationsList : Outcome ε (List UInt8)) = .ok l ∧
      l.Pairwise (· < ·) ∧ ∀ c, c ∈ l ↔ c ∈ S := by
  refine ⟨_, asOperationsList_eq m, pairwise_codes.filter _, fun c => ?_⟩
  rw [List.mem_filter, mem_codes]
  exact ⟨fun ⟨hc, hbit⟩ => (h.bit_iff c hc).mp hbit,
    fun hc => ⟨S.valid c hc, (h.bit_iff c (S.valid c hc)).mpr hc⟩⟩

/-! ## The simulation -/

section Simulation

variable {κ : Type} [DecidableEq κ]

/-- Updating one member of two related families by related values keeps them related. -/
theorem represents_update {σ : κ → NodeObjectPropertyMap} {S : κ → CodeSet}
    (h : ∀ k, Represents (σ k) (S k)) (k : κ) {m : NodeObjectPropertyMap} {T : CodeSet}
    (hm : Represents m T) (l : κ) :
    Represents (Function.update σ k m l) (Function.update S k T l) := by
  by_cases hl : l = k
  · subst hl
    rw [Function.update_self, Function.update_self]
    exact hm
  · rw [Function.update_of_ne hl, Function.update_of_ne hl]
    exact h l

/-- **One command on maps is the same command on code sets.** -/
theorem exec_simulates (σ : κ → NodeObjectPropertyMap) (S : κ → CodeSet) (cmd : MapCommand κ)
    (h : ∀ k, Represents (σ k) (S k)) :
    (cmd.exec σ).1 = (cmd.execSpec S).1 ∧
      ∀ k, Represents ((cmd.exec σ).2 k) ((cmd.execSpec S).2 k) := by
  cases cmd with
  | enableOperation k operation =>
    obtain ⟨hreply, hrep⟩ := (h k).enable operation
    exact ⟨congrArg some hreply, represents_update h k hrep⟩
  | disableOperation k operation =>
    obtain ⟨hreply, hrep⟩ := (h k).disable operation
    exact ⟨congrArg some hreply, represents_update h k hrep⟩
  | disableAll k =>
    obtain ⟨hreply, hrep⟩ := (h k).disableAll
    exact ⟨congrArg some hreply, represents_update h k hrep⟩
  | copyFrom k other => exact ⟨rfl, represents_update h k (h other).copyFrom⟩

/-- A family of fresh maps after a run of commands. -/
def runMaps (cmds : List (MapCommand κ)) : κ → NodeObjectPropertyMap :=
  Machine.final MapCommand.exec (fun _ => new) cmds

/-- A family of empty code sets after the same run. -/
def runSets (cmds : List (MapCommand κ)) : κ → CodeSet :=
  Machine.final MapCommand.execSpec (fun _ => CodeSet.empty) cmds

/-- The run lemma: the replies agree, and every map stands for its set. -/
theorem run_simulates (cmds : List (MapCommand κ)) :
    Machine.replies MapCommand.exec (fun _ => new) cmds
        = Machine.replies MapCommand.execSpec (fun _ => CodeSet.empty) cmds ∧
      ∀ k, Represents (runMaps cmds k) (runSets cmds k) :=
  Machine.simulation
    (fun (σ : κ → NodeObjectPropertyMap) (S : κ → CodeSet) => ∀ k, Represents (σ k) (S k))
    exec_simulates (fun _ => Represents.new_empty) cmds

/-- **A property map is a finite set of codes**: over every run of commands on any number of maps,
the replies are those of the set operations, and every map reads and lists exactly its set. -/
theorem propertyMap_refines_codeSet (cmds : List (MapCommand κ)) :
    Machine.replies MapCommand.exec (fun _ => new) cmds
        = Machine.replies MapCommand.execSpec (fun _ => CodeSet.empty) cmds ∧
      ∀ k, (∀ operation, (runMaps cmds k).isOperationEnabled operation =
          if operation < 0x80 then .err invalidOperation
          else .ok (decide (operation ∈ runSets cmds k))) ∧
        ∃ l : List UInt8, (runMaps cmds k).asOperationsList = (.ok l : Outcome MiddlewareError _) ∧
          l.Pairwise (· < ·) ∧ ∀ c, c ∈ l ↔ c ∈ runSets cmds k := by
  obtain ⟨hreplies, hrep⟩ := run_simulates cmds
  exact ⟨hreplies, fun k => ⟨(hrep k).isOperationEnabled, (hrep k).asOperationsList⟩⟩

end Simulation

end Echonet
