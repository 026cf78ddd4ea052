import Mathlib.Data.List.Induction
import Mathlib.Data.List.Nodup

/-!
# Foundations/Grouping — a set of elements that are told apart by a key

A set that holds at most one element of every key is determined by what is found for each key.
Taking an element out, changing it and putting it back changes what is found for its key alone
(`lookup_update`), so a stream that is distributed over the elements keeps its order in each of them
(`values_distribute`).
-/

universe u v w

namespace Grouping

variable {γ : Type u} {κ : Type v} [DecidableEq κ] (key : γ → κ)

/-- No two elements have the same key. -/
def Distinct (s : List γ) : Prop := (s.map key).Nodup

/-- The element with a key. -/
def lookup (k : κ) (s : List γ) : Option γ := s.find? fun g => key g = k

/-- Remove the element with a key, and return it. -/
def take (k : κ) (s : List γ) : Option γ × List γ :=
  (lookup key k s, s.filter fun g => key g ≠ k)

/-- Add an element, unless there is one with its key. -/
def insert (g : γ) (s : List γ) : List γ :=
  if (lookup key (key g) s).isSome then s else s ++ [g]

/-- Take out the element with the key of a fresh one, or the fresh one if there is none, and put it
back changed. -/
def update (fresh : γ) (f : γ → γ) (s : List γ) : List γ :=
  insert key (f ((take key (key fresh) s).1.getD fresh)) (take key (key fresh) s).2

variable {key} {k : κ} {s : List γ} {g : γ}

/-! ## What is found -/

theorem lookup_eq_none_iff : lookup key k s = none ↔ ∀ g ∈ s, key g ≠ k := by
  rw [lookup, List.find?_eq_none]
  simp

theorem key_of_lookup (h : lookup key k s = some g) : key g = k := by
  simpa using List.find?_some h

theorem mem_of_lookup (h : lookup key k s = some g) : g ∈ s := List.mem_of_find?_eq_some h

theorem lookup_isSome_iff : (lookup key k s).isSome = true ↔ ∃ g ∈ s, key g = k := by
  rw [lookup, List.find?_isSome]
  simp

/-- What a set holds is what is found in it. -/
theorem lookup_of_mem (hs : Distinct key s) (hg : g ∈ s) : lookup key (key g) s = some g := by
  cases hfound : lookup key (key g) s with
  | none => exact absurd rfl (lookup_eq_none_iff.mp hfound g hg)
  | some g' =>
    exact congrArg some <|
      List.inj_on_of_nodup_map hs (mem_of_lookup hfound) hg (key_of_lookup hfound)

/-! ## Taking out -/

theorem Distinct.take (hs : Distinct key s) (k : κ) : Distinct key (take key k s).2 :=
  List.Nodup.sublist (List.filter_sublist.map key) hs

theorem lookup_take (k k' : κ) (s : List γ) :
    lookup key k' (take key k s).2 = if k' = k then none else lookup key k' s := by
  split_ifs with hk
  · subst hk
    rw [lookup_eq_none_iff]
    intro g hg
    simpa using (List.mem_filter.mp hg).2
  · rw [lookup, take, List.find?_filter, lookup]
    congr 1
    funext g
    by_cases hg : key g = k'
    · simp [hg, hk]
    · simp [hg]

/-! ## Putting in -/

theorem Distinct.insert (hs : Distinct key s) (g : γ) : Distinct key (insert key g s) := by
  rw [Grouping.insert]
  split_ifs with hfound
  · exact hs
  · have hnone := lookup_eq_none_iff.mp (Option.not_isSome_iff_eq_none.mp hfound)
    rw [Distinct, List.map_append, List.map_singleton]
    refine List.nodup_append.mpr ⟨hs, List.nodup_singleton _, fun k hk k' hk' => ?_⟩
    obtain ⟨g', hg', rfl⟩ := List.mem_map.mp hk
    rw [List.mem_singleton.mp hk']
    exact hnone g' hg'

/-- An element that is put in where there is none of its key is found. -/
theorem lookup_insert (h : lookup key (key g) s = none) (k : κ) :
    lookup key k (insert key g s) = if k = key g then some g else lookup key k s := by
  rw [insert, h, if_neg (by simp), lookup, List.find?_append]
  split_ifs with hk
  · subst hk
    rw [lookup] at h
    simp [h]
  · have hg : key g ≠ k := fun heq => hk heq.symm
    simp [lookup, hg]

/-! ## Changing -/

variable {fresh : γ} {f : γ → γ}

theorem Distinct.update (hs : Distinct key s) (fresh : γ) (f : γ → γ) :
    Distinct key (update key fresh f s) := (hs.take _).insert _

/-- **A change of one element is seen at its key alone.** -/
theorem lookup_update (hf : ∀ g, key (f g) = key g) (k : κ) :
    lookup key k (update key fresh f s) =
      if k = key fresh then some (f ((lookup key (key fresh) s).getD fresh))
      else lookup key k s := by
  have hkey : key (f ((lookup key (key fresh) s).getD fresh)) = key fresh := by
    rw [hf]
    cases hfound : lookup key (key fresh) s with
    | none => rfl
    | some g => exact key_of_lookup hfound
  have hnone : lookup key (key (f ((lookup key (key fresh) s).getD fresh)))
      (take key (key fresh) s).2 = none := by rw [hkey, lookup_take, if_pos rfl]
  rw [update, show (take key (key fresh) s).1 = lookup key (key fresh) s from rfl,
    lookup_insert hnone, hkey, lookup_take]
  split_ifs <;> rfl

/-- What holds of all elements still does, if it does of a changed one, be that fresh or not. -/
theorem forall_mem_update_of {P : γ → Prop} (hs : ∀ g ∈ s, P g)
    (hf : ∀ g, g = fresh ∨ P g → P (f g)) : ∀ g ∈ update key fresh f s, P g := by
  have htake : ∀ g ∈ (take key (key fresh) s).2, P g := fun g hg => hs g (List.mem_filter.mp hg).1
  have hchanged : P (f ((take key (key fresh) s).1.getD fresh)) := by
    refine hf _ ?_
    cases hfound : (take key (key fresh) s).1 with
    | none => exact Or.inl rfl
    | some g => exact Or.inr (hs g (mem_of_lookup hfound))
  intro g hg
  rw [update, insert] at hg
  split_ifs at hg
  · exact htake g hg
  · rcases List.mem_append.mp hg with hg | hg
    · exact htake g hg
    · rw [List.mem_singleton.mp hg]
      exact hchanged

/-- What holds of all elements still does, if it does of a fresh one and the change keeps it. -/
theorem forall_mem_update {P : γ → Prop} (hs : ∀ g ∈ s, P g) (hfresh : P fresh)
    (hf : ∀ g, P g → P (f g)) : ∀ g ∈ update key fresh f s, P g := by
  refine forall_mem_update_of hs ?_
  rintro g (rfl | hg)
  · exact hf g hfresh
  · exact hf g hg

/-! ## Distributing a stream -/

section Distribute

variable {α : Type w} {β : Type w}

/-- Every item of a stream goes to the element with its key, which is a fresh one at first. -/
def distribute (key : γ → κ) (fresh : α → γ) (push : α → γ → γ) (items : List α) : List γ :=
  items.foldl (fun s a => update key (fresh a) (push a) s) []

/-- The values of the items that have a key, in the order of the stream. -/
def valuesOf (key : γ → κ) (fresh : α → γ) (value : α → β) (k : κ) (items : List α) : List β :=
  (items.filter fun a => key (fresh a) = k).map value

variable {fresh : α → γ} {push : α → γ → γ} {values : γ → List β} {value : α → β}

theorem distribute_concat (items : List α) (a : α) :
    distribute key fresh push (items ++ [a])
      = update key (fresh a) (push a) (distribute key fresh push items) := by
  rw [distribute, List.foldl_append]
  rfl

theorem distinct_distribute (items : List α) : Distinct key (distribute key fresh push items) := by
  induction items using List.reverseRecOn with
  | nil => exact List.nodup_nil
  | append_singleton items a ih =>
    rw [distribute_concat]
    exact ih.update _ _

/-- **A stream that is distributed keeps its order**: every element holds the values of its key. -/
theorem values_distribute (hkey : ∀ a g, key (push a g) = key g)
    (hfresh : ∀ a, values (fresh a) = [])
    (hpush : ∀ a g, values (push a g) = values g ++ [value a]) (items : List α) (k : κ) :
    ((lookup key k (distribute key fresh push items)).map values).getD []
      = valuesOf key fresh value k items := by
  induction items using List.reverseRecOn with
  | nil => rfl
  | append_singleton items a ih =>
    rw [distribute_concat, lookup_update (hkey a), valuesOf, List.filter_append, List.map_append,
      ← valuesOf, ← ih]
    by_cases hk : k = key (fresh a)
    · subst hk
      rw [if_pos rfl, Option.map_some, Option.getD_some, hpush]
      cases lookup key (key (fresh a)) (distribute key fresh push items) with
      | none => simp [hfresh]
      | some g => simp
    · have hne : key (fresh a) ≠ k := fun heq => hk heq.symm
      simp [hk, hne]

/-- An element is there exactly when some item has its key. -/
theorem lookup_distribute_isSome (hkey : ∀ a g, key (push a g) = key g) (items : List α) (k : κ) :
    (lookup key k (distribute key fresh push items)).isSome = true ↔
      ∃ a ∈ items, key (fresh a) = k := by
  induction items using List.reverseRecOn with
  | nil => simp [distribute, lookup]
  | append_singleton items a ih =>
    rw [distribute_concat, lookup_update (hkey a)]
    by_cases hk : k = key (fresh a)
    · rw [if_pos hk]
      exact iff_of_true rfl ⟨a, by simp, hk.symm⟩
    · rw [if_neg hk, ih]
      constructor
      · rintro ⟨b, hb, heq⟩
        exact ⟨b, List.mem_append_left _ hb, heq⟩
      · rintro ⟨b, hb, heq⟩
        rcases List.mem_append.mp hb with hb | hb
        · exact ⟨b, hb, heq⟩
        · rw [List.mem_singleton.mp hb] at heq
          exact absurd heq.symm hk

end Distribute

end Grouping
