/-
Lookups in maps and sets after one edit, with keys told apart by equality. All keys here are ordered lawfully, so that
two keys compare equal exactly if they are equal.
-/
import Mathlib.Tactic
import ConceptGraph.Multimap

namespace ConceptGraph

open Std

variable {κ α : Type} [Ord κ]

theorem compare_iff [LawfulEqOrd κ] {k a : κ} : compare k a = .eq ↔ a = k := Std.compare_eq_iff_eq.trans eq_comm

variable [TransOrd κ]

/-! ## Maps -/

theorem contains_iff {m : ExtTreeMap κ α} {k : κ} : m.contains k ↔ ∃ v, m[k]? = some v := by
  rw [← ExtTreeMap.isSome_getElem?_eq_contains, Option.isSome_iff_exists]

section Map

variable [LawfulEqOrd κ] [DecidableEq κ] (m : ExtTreeMap κ α) (k a : κ)

theorem lookup_insert (v : α) : (m.insert k v)[a]? = if a = k then some v else m[a]? := by
  simp only [ExtTreeMap.getElem?_insert, compare_iff]

theorem lookup_erase : (m.erase k)[a]? = if a = k then none else m[a]? := by
  simp only [ExtTreeMap.getElem?_erase, compare_iff]

theorem lookup_modify (f : α → α) : (m.modify k f)[a]? = if a = k then m[a]?.map f else m[a]? := by
  simp only [ExtTreeMap.getElem?_modify, compare_iff]
  split
  · rename_i h
    rw [h]
  · rfl

theorem lookup_ofList {l : List (κ × α)} (hl : (l.map Prod.fst).Nodup) {k : κ} {v : α} :
    (ExtTreeMap.ofList l)[k]? = some v ↔ (k, v) ∈ l := by
  have distinct : l.Pairwise fun a b => ¬ compare a.1 b.1 = .eq :=
    (List.pairwise_map.1 hl).imp fun hab he => hab (Std.compare_eq_iff_eq.1 he)
  constructor
  · intro hv
    have hk : k ∈ l.map Prod.fst := by
      have : k ∈ ExtTreeMap.ofList l := by
        rw [ExtTreeMap.mem_iff_isSome_getElem?, hv]
        rfl
      simpa using ExtTreeMap.mem_ofList.1 this
    obtain ⟨⟨k', w⟩, hw, rfl⟩ := List.mem_map.1 hk
    rw [ExtTreeMap.getElem?_ofList_of_mem (Std.compare_eq_iff_eq.2 rfl) distinct hw] at hv
    exact Option.some.inj hv ▸ hw
  · intro hv
    exact ExtTreeMap.getElem?_ofList_of_mem (Std.compare_eq_iff_eq.2 rfl) distinct hv

end Map

/-! ## Sets -/

section Set

variable [LawfulEqOrd κ] {s : ExtTreeSet κ} {k a : κ}

theorem mem_set_insert : a ∈ s.insert k ↔ a = k ∨ a ∈ s := by
  rw [ExtTreeSet.mem_insert, compare_iff]

theorem mem_set_erase : a ∈ s.erase k ↔ a ≠ k ∧ a ∈ s := by
  rw [ExtTreeSet.mem_erase, ne_eq, compare_iff]

/-- erasing what is not there changes nothing -/
theorem set_erase_of_not_mem (h : a ∉ s) : s.erase a = s := by
  apply ExtTreeSet.ext_mem
  intro b
  rw [mem_set_erase]
  exact ⟨And.right, fun hb => ⟨fun he => h (he ▸ hb), hb⟩⟩

end Set

/-! ## Multimaps -/

namespace Multimap

variable {β : Type} [Ord β] [TransOrd β] {m : Multimap κ β} {k k' : κ} {a b : β}

theorem not_mem_empty : b ∉ (empty : Multimap κ β).get k := by
  simp [empty, get]

variable [LawfulEqOrd β]

theorem mem_toList : b ∈ m.toList k ↔ b ∈ m.get k := ExtTreeSet.mem_toList

theorem nodup_toList : (m.toList k).Nodup :=
  ExtTreeSet.distinct_toList.imp fun h he => h (Std.compare_eq_iff_eq.2 he)

theorem count_pos : 0 < m.count k ↔ ∃ b, b ∈ m.get k := by
  rw [count, ← ExtTreeSet.length_toList, List.length_pos_iff_exists_mem]
  exact exists_congr fun b => ExtTreeSet.mem_toList

variable [LawfulEqOrd κ] [DecidableEq κ]

theorem mem_insert : b ∈ (m.insert k a).get k' ↔ (k' = k ∧ b = a) ∨ b ∈ m.get k' := by
  rw [insert, get, lookup_insert]
  by_cases h : k' = k
  · subst h
    simp only [if_true, Option.getD_some, mem_set_insert, true_and]
  · simp [h, get]

theorem mem_remove : b ∈ (m.remove k a).get k' ↔ b ∈ m.get k' ∧ ¬(k' = k ∧ b = a) := by
  by_cases h : k' = k
  · subst h
    rw [remove, get]
    split
    · rename_i he
      have hrest : b ∉ (m.get k').erase a := by
        rw [ExtTreeSet.isEmpty_iff] at he
        simp [he]
      simp only [lookup_erase, if_true, Option.getD_none, ExtTreeSet.not_mem_empty, false_iff]
      rw [mem_set_erase] at hrest
      tauto
    · simp only [lookup_insert, if_true, Option.getD_some, mem_set_erase]
      tauto
  · rw [remove, get]
    split <;> simp [lookup_erase, lookup_insert, h, get]

end Multimap

end ConceptGraph
