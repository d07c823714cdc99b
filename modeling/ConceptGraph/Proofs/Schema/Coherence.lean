/-
A schema in which definitions, labels, forests and cross references fit together, and the edits that keep it so.

- `Coherent`: what a definition refers to is there and of the right kind; the five types every schema starts with are as
  they were made; every other element has a direct supertype of its own kind.
- `insert_coherent`, `redefine_coherent`, `relabel_coherent`, `reparent_coherent`, `remove_coherent`: one step each, for
  elements that are not among the five.
- `kind_of_supertype`: above an element there are only elements of its kind, and `thing`.
-/
import ConceptGraph.Proofs.Schema.Resolution

namespace ConceptGraph

open Std

namespace TypeDef

/-- whether the definition refers to the element -/
def RefersTo (d : TypeDef) (x : TypeId) : Prop := x ∈ d.plays ∨ d.relatesRole x ∨ x ∈ d.owns

theorem not_mem_blank_plays {l : Label} {b : TypeBody} {x : TypeId} : x ∉ (blank l b).plays := ExtTreeSet.not_mem_empty

theorem not_mem_blank_owns {l : Label} {b : TypeBody} {x : TypeId} : x ∉ (blank l b).owns := ExtTreeMap.not_mem_empty

/-- nothing declared, as in the types every schema starts with -/
structure Bare (d : TypeDef) : Prop where
  plays : d.plays = ∅
  owns : d.owns = ∅
  body : d.body = .blank d.kind

theorem Bare.not_refersTo {d : TypeDef} (h : d.Bare) (x : TypeId) : ¬ d.RefersTo x := by
  have hrel : ¬ d.relatesRole x := by
    rw [relatesRole, relates?, h.body]
    cases d.kind <;> simp [TypeBody.blank]
  intro hcase
  rcases hcase with hx | hx | hx
  · rw [h.plays] at hx
    exact ExtTreeSet.not_mem_empty hx
  · exact hrel hx
  · rw [h.owns] at hx
    exact ExtTreeMap.not_mem_empty hx

theorem Bare.dataType?_eq {d : TypeDef} (h : d.Bare) : d.dataType? = none := by
  rw [TypeDef.dataType?, h.body]
  cases d.kind <;> rfl

theorem Bare.regex?_eq {d : TypeDef} (h : d.Bare) : d.regex? = none := by
  rw [TypeDef.regex?, h.body]
  cases d.kind <;> rfl

end TypeDef

namespace Schema

/-- the element is there and of the kind -/
def HasKind (s : Schema) (t : TypeId) (k : Kind) : Prop := ∃ d, s.get? t = some d ∧ d.kind = k

/-- what the definition refers to is there, and of the right kind -/
structure RefsDefined (s : Schema) (d : TypeDef) : Prop where
  plays : ∀ role ∈ d.plays, s.HasKind role .role
  relates : ∀ role, d.relatesRole role → s.HasKind role .role
  owns : ∀ a ∈ d.owns, s.HasKind a .attribute

/-- definitions, labels, forests and cross references fit together -/
structure Coherent (s : Schema) : Prop where
  indexed : s.Indexed
  refs : ∀ t d, s.get? t = some d → s.RefsDefined d
  nodup : s.metaTypes.toList.Nodup
  roots : ∀ m ∈ s.metaTypes.toList, s.get? m = (bootstrap s.metaTypes).get? m ∧
    s.directSupertype? m = (bootstrap s.metaTypes).directSupertype? m
  parented : ∀ t d, s.get? t = some d → ¬ s.isMeta t →
    ∃ p, s.directSupertype? t = some p ∧ p ≠ s.metaTypes.thingRoot ∧ s.HasKind p d.kind

variable {s s' : Schema} {t a p : TypeId} {d d' : TypeDef}

theorem isMeta_iff : s.isMeta t ↔ t ∈ s.metaTypes.toList := by
  rw [isMeta, MetaTypes.contains, List.contains_iff_mem]

theorem RefsDefined.mono (h : s.RefsDefined d) (hk : ∀ x k, d.RefersTo x → s.HasKind x k → s'.HasKind x k) :
    s'.RefsDefined d where
  plays role hr := hk role _ (Or.inl hr) (h.plays role hr)
  relates role hr := hk role _ (Or.inr (Or.inl hr)) (h.relates role hr)
  owns a ha := hk a _ (Or.inr (Or.inr ha)) (h.owns a ha)

/-- fewer references are still defined -/
theorem RefsDefined.fewer (h : s.RefsDefined d) (hp : ∀ x ∈ d'.plays, x ∈ d.plays)
    (hr : ∀ x, d'.relatesRole x → d.relatesRole x) (ho : ∀ x ∈ d'.owns, x ∈ d.owns) : s.RefsDefined d' where
  plays role h' := h.plays role (hp role h')
  relates role h' := h.relates role (hr role h')
  owns a h' := h.owns a (ho a h')

theorem refsDefined_of_no_refs (h : ∀ x, ¬ d.RefersTo x) : s.RefsDefined d where
  plays role hr := absurd (Or.inl hr) (h role)
  relates role hr := absurd (Or.inr (Or.inl hr)) (h role)
  owns a ha := absurd (Or.inr (Or.inr ha)) (h a)

/-! ## The five types to start from -/

/-- the definition of one of the five types, as the schema starts with it -/
def rootDef (label : Label) (kind : Kind) (isAbstract : Bool) : TypeDef :=
  { TypeDef.blank label (.blank kind) with isAbstract := isAbstract }

theorem rootDef_kind (l : Label) (k : Kind) (b : Bool) : (rootDef l k b).kind = k := by
  cases k <;> rfl

theorem rootDef_bare (l : Label) (k : Kind) (b : Bool) : (rootDef l k b).Bare := by
  refine ⟨rfl, rfl, ?_⟩
  rw [rootDef_kind]
  rfl

theorem get?_bootstrap {m : MetaTypes} (hm : m.toList.Nodup) : (bootstrap m).get? t = some d ↔
    (t = m.thingRoot ∧ d = rootDef "thing" .entity true) ∨ (t = m.roleRoot ∧ d = rootDef "role" .role false) ∨
      (t = m.entityRoot ∧ d = rootDef "entity" .entity true) ∨
      (t = m.relationRoot ∧ d = rootDef "relation" .relation true) ∨
      (t = m.attributeRoot ∧ d = rootDef "attribute" .attribute true) := by
  have hkeys : [m.thingRoot, m.roleRoot, m.entityRoot, m.relationRoot, m.attributeRoot].Nodup := by
    simp only [MetaTypes.toList, List.nodup_cons, List.mem_cons, List.not_mem_nil, or_false, not_or,
      not_false_eq_true, List.nodup_nil, and_true] at hm ⊢
    obtain ⟨⟨h1, h2, h3, h4⟩, ⟨h5, h6, h7⟩, ⟨h8, h9⟩, h10⟩ := hm
    exact ⟨⟨h4, h1, h2, h3⟩, ⟨Ne.symm h7, Ne.symm h9, Ne.symm h10⟩, ⟨h5, h6⟩, h8⟩
  unfold get? bootstrap
  rw [lookup_ofList (by simpa using hkeys)]
  simp [rootDef]

theorem idOf?_bootstrap {m : MetaTypes} {l : Label} : (bootstrap m).idOf? l = some t ↔
    (l = "thing" ∧ t = m.thingRoot) ∨ (l = "role" ∧ t = m.roleRoot) ∨ (l = "entity" ∧ t = m.entityRoot) ∨
      (l = "relation" ∧ t = m.relationRoot) ∨ (l = "attribute" ∧ t = m.attributeRoot) := by
  unfold idOf? bootstrap
  rw [lookup_ofList (by simp [TypeDef.blank])]
  simp [TypeDef.blank]

theorem bootstrap_forest_nodup {m : MetaTypes} (hm : m.toList.Nodup) :
    [m.thingRoot, m.entityRoot, m.relationRoot, m.attributeRoot].Nodup := by
  have hsub : [m.thingRoot, m.entityRoot, m.relationRoot, m.attributeRoot].Sublist m.toList := by
    simp [MetaTypes.toList]
  exact hm.sublist hsub

/-- the roles among the five types, and those that are none -/
theorem isRole_bootstrap {m : MetaTypes} (hm : m.toList.Nodup) (b : Bool) (t : TypeId) :
    (∃ d, (bootstrap m).get? t = some d ∧ d.isRole = b) ↔
      if b then t = m.roleRoot else t ∈ [m.thingRoot, m.entityRoot, m.relationRoot, m.attributeRoot] := by
  simp only [get?_bootstrap hm]
  constructor
  · rintro ⟨d, ⟨rfl, rfl⟩ | ⟨rfl, rfl⟩ | ⟨rfl, rfl⟩ | ⟨rfl, rfl⟩ | ⟨rfl, rfl⟩, rfl⟩ <;>
      simp [TypeDef.isRole, rootDef_kind]
  · cases b with
    | true =>
      intro ht
      exact ⟨_, Or.inr (Or.inl ⟨ht, rfl⟩), rfl⟩
    | false =>
      simp only [Bool.false_eq_true, if_false, List.mem_cons, List.not_mem_nil, or_false]
      intro hcase
      rcases hcase with h | h | h | h
      · exact ⟨_, Or.inl ⟨h, rfl⟩, rfl⟩
      · exact ⟨_, Or.inr (Or.inr (Or.inl ⟨h, rfl⟩)), rfl⟩
      · exact ⟨_, Or.inr (Or.inr (Or.inr (Or.inl ⟨h, rfl⟩))), rfl⟩
      · exact ⟨_, Or.inr (Or.inr (Or.inr (Or.inr ⟨h, rfl⟩))), rfl⟩

theorem label_bootstrap {m : MetaTypes} (hm : m.toList.Nodup) (l : Label) (t : TypeId) :
    (bootstrap m).idOf? l = some t ↔ ∃ d, (bootstrap m).get? t = some d ∧ d.label = l := by
  simp only [idOf?_bootstrap, get?_bootstrap hm]
  constructor
  · intro hcase
    rcases hcase with ⟨rfl, h⟩ | ⟨rfl, h⟩ | ⟨rfl, h⟩ | ⟨rfl, h⟩ | ⟨rfl, h⟩
    · exact ⟨_, Or.inl ⟨h, rfl⟩, rfl⟩
    · exact ⟨_, Or.inr (Or.inl ⟨h, rfl⟩), rfl⟩
    · exact ⟨_, Or.inr (Or.inr (Or.inl ⟨h, rfl⟩)), rfl⟩
    · exact ⟨_, Or.inr (Or.inr (Or.inr (Or.inl ⟨h, rfl⟩))), rfl⟩
    · exact ⟨_, Or.inr (Or.inr (Or.inr (Or.inr ⟨h, rfl⟩))), rfl⟩
  · rintro ⟨d, ⟨ht, rfl⟩ | ⟨ht, rfl⟩ | ⟨ht, rfl⟩ | ⟨ht, rfl⟩ | ⟨ht, rfl⟩, rfl⟩
    · exact Or.inl ⟨rfl, ht⟩
    · exact Or.inr (Or.inl ⟨rfl, ht⟩)
    · exact Or.inr (Or.inr (Or.inl ⟨rfl, ht⟩))
    · exact Or.inr (Or.inr (Or.inr (Or.inl ⟨rfl, ht⟩)))
    · exact Or.inr (Or.inr (Or.inr (Or.inr ⟨rfl, ht⟩)))

theorem bootstrap_indexed {m : MetaTypes} (hm : m.toList.Nodup) : (bootstrap m).Indexed := by
  have hthings := bootstrap_forest_nodup hm
  have hroles : [m.roleRoot].Nodup := List.nodup_singleton _
  refine ⟨?_, ?_, label_bootstrap hm⟩
  · intro b
    cases b with
    | false => exact Hierarchy.star_forest hthings
    | true => exact Hierarchy.star_forest hroles
  · intro b t
    rw [isRole_bootstrap hm]
    cases b with
    | false =>
      apply (Hierarchy.contains_star hthings).trans
      simp
    | true =>
      apply (Hierarchy.contains_star hroles).trans
      simp

theorem directSupertype?_bootstrap {m : MetaTypes} (hm : m.toList.Nodup) : (bootstrap m).directSupertype? t = some p ↔
    t ∈ [m.entityRoot, m.relationRoot, m.attributeRoot] ∧ p = m.thingRoot := by
  rw [(bootstrap_indexed hm).directSupertype?_eq_some]
  constructor
  · rintro ⟨b, hb⟩
    cases b with
    | false => exact (Hierarchy.parent?_star (bootstrap_forest_nodup hm)).1 hb
    | true =>
      have := (Hierarchy.parent?_star (List.nodup_singleton m.roleRoot)).1 hb
      simp at this
  · intro h
    exact ⟨false, (Hierarchy.parent?_star (bootstrap_forest_nodup hm)).2 h⟩

theorem bootstrap_bare {m : MetaTypes} (hm : m.toList.Nodup) (hd : (bootstrap m).get? t = some d) : d.Bare := by
  rcases (get?_bootstrap hm).1 hd with ⟨-, rfl⟩ | ⟨-, rfl⟩ | ⟨-, rfl⟩ | ⟨-, rfl⟩ | ⟨-, rfl⟩ <;> exact rootDef_bare _ _ _

theorem mem_of_bootstrap {m : MetaTypes} (hm : m.toList.Nodup) (hd : (bootstrap m).get? t = some d) : t ∈ m.toList := by
  rcases (get?_bootstrap hm).1 hd with ⟨rfl, -⟩ | ⟨rfl, -⟩ | ⟨rfl, -⟩ | ⟨rfl, -⟩ | ⟨rfl, -⟩ <;> simp [MetaTypes.toList]

@[simp] theorem metaTypes_bootstrap (m : MetaTypes) : (bootstrap m).metaTypes = m := rfl

theorem bootstrap_coherent {m : MetaTypes} (hm : m.toList.Nodup) : (bootstrap m).Coherent := by
  refine ⟨bootstrap_indexed hm, ?_, hm, ?_, ?_⟩
  · intro t d hd
    exact refsDefined_of_no_refs (bootstrap_bare hm hd).not_refersTo
  · intro t _
    rw [metaTypes_bootstrap]
    exact ⟨rfl, rfl⟩
  · intro t d hd ht
    rw [isMeta_iff, metaTypes_bootstrap] at ht
    exact absurd (mem_of_bootstrap hm hd) ht

/-! ## Reading a coherent schema -/

namespace Coherent

theorem root_defined (h : s.Coherent) (ht : s.isMeta t) : ∃ d, s.get? t = some d := by
  have hm := isMeta_iff.1 ht
  rw [(h.roots t hm).1]
  simp only [MetaTypes.toList, List.mem_cons, List.not_mem_nil, or_false] at hm
  rcases hm with hm | hm | hm | hm | hm
  · exact ⟨_, (get?_bootstrap h.nodup).2 (Or.inl ⟨hm, rfl⟩)⟩
  · exact ⟨_, (get?_bootstrap h.nodup).2 (Or.inr (Or.inr (Or.inl ⟨hm, rfl⟩)))⟩
  · exact ⟨_, (get?_bootstrap h.nodup).2 (Or.inr (Or.inr (Or.inr (Or.inl ⟨hm, rfl⟩))))⟩
  · exact ⟨_, (get?_bootstrap h.nodup).2 (Or.inr (Or.inr (Or.inr (Or.inr ⟨hm, rfl⟩))))⟩
  · exact ⟨_, (get?_bootstrap h.nodup).2 (Or.inr (Or.inl ⟨hm, rfl⟩))⟩

/-- the definition of one of the five types is the one the schema starts with -/
theorem root_def (h : s.Coherent) (ht : s.isMeta t) (hd : s.get? t = some d) :
    (bootstrap s.metaTypes).get? t = some d := by
  rw [← (h.roots t (isMeta_iff.1 ht)).1, hd]

theorem root_bare (h : s.Coherent) (ht : s.isMeta t) (hd : s.get? t = some d) : d.Bare :=
  bootstrap_bare h.nodup (h.root_def ht hd)

/-- above one of the five types there is at most `thing` -/
theorem root_parent (h : s.Coherent) (ht : s.isMeta t) (hp : s.directSupertype? t = some p) :
    p = s.metaTypes.thingRoot := by
  rw [(h.roots t (isMeta_iff.1 ht)).2] at hp
  exact ((directSupertype?_bootstrap h.nodup).1 hp).2

theorem thingRoot_isMeta (s : Schema) : s.isMeta s.metaTypes.thingRoot := isMeta_iff.2 (by simp [MetaTypes.toList])

theorem ofKind_isMeta (s : Schema) (k : Kind) : s.isMeta (s.metaTypes.ofKind k) := by
  apply isMeta_iff.2
  cases k <;> simp [MetaTypes.ofKind, MetaTypes.toList]

theorem ofKind_ne_thingRoot (h : s.Coherent) (k : Kind) : s.metaTypes.ofKind k ≠ s.metaTypes.thingRoot := by
  have hm := h.nodup
  simp only [MetaTypes.toList, List.nodup_cons, List.mem_cons, List.not_mem_nil, or_false, not_or] at hm
  obtain ⟨⟨h1, h2, h3, h4⟩, -⟩ := hm
  cases k <;> simp only [MetaTypes.ofKind] <;> exact Ne.symm ‹_›

theorem ofKind_hasKind (h : s.Coherent) (k : Kind) : s.HasKind (s.metaTypes.ofKind k) k := by
  have hm := isMeta_iff.1 (ofKind_isMeta s k)
  have hdef : ∃ l b, (bootstrap s.metaTypes).get? (s.metaTypes.ofKind k) = some (rootDef l k b) := by
    simp only [get?_bootstrap h.nodup]
    cases k with
    | entity => exact ⟨_, _, Or.inr (Or.inr (Or.inl ⟨rfl, rfl⟩))⟩
    | relation => exact ⟨_, _, Or.inr (Or.inr (Or.inr (Or.inl ⟨rfl, rfl⟩)))⟩
    | «attribute» => exact ⟨_, _, Or.inr (Or.inr (Or.inr (Or.inr ⟨rfl, rfl⟩)))⟩
    | role => exact ⟨_, _, Or.inr (Or.inl ⟨rfl, rfl⟩)⟩
  obtain ⟨l, b, hdef⟩ := hdef
  exact ⟨_, (h.roots _ hm).1.trans hdef, rootDef_kind l k b⟩

theorem thingRoot_hasKind (h : s.Coherent) : s.HasKind s.metaTypes.thingRoot .entity :=
  ⟨_, (h.roots _ (isMeta_iff.1 (thingRoot_isMeta s))).1.trans ((get?_bootstrap h.nodup).2 (Or.inl ⟨rfl, rfl⟩)),
    rootDef_kind _ _ _⟩

/-- **Kinds.** Above an element there are only elements of its kind, and `thing`. -/
theorem kind_of_supertype (h : s.Coherent) (hd : s.get? t = some d) (ha : a ∈ s.supertypes t)
    (hne : a ≠ s.metaTypes.thingRoot) : s.HasKind a d.kind := by
  induction t using h.indexed.supertype_induction generalizing d with
  | _ t ih =>
    rcases h.indexed.mem_supertypes_iff.1 ha with ⟨rfl, -⟩ | ⟨p, hp, ha'⟩
    · exact ⟨d, hd, rfl⟩
    · by_cases ht : s.isMeta t
      · obtain rfl := h.root_parent ht hp
        obtain ⟨e, he⟩ := h.root_defined (thingRoot_isMeta s)
        rcases h.indexed.mem_supertypes_iff.1 ha' with ⟨rfl, -⟩ | ⟨q, hq, -⟩
        · exact absurd rfl hne
        · rw [(h.roots _ (isMeta_iff.1 (thingRoot_isMeta s))).2] at hq
          have hm := h.nodup
          have := ((directSupertype?_bootstrap h.nodup).1 hq).1
          simp only [MetaTypes.toList, List.nodup_cons, List.mem_cons, List.not_mem_nil, or_false, not_or] at hm this
          tauto
      · obtain ⟨q, hq, -, e, he, hk⟩ := h.parented t d hd ht
        obtain rfl := Option.some.inj (hp.symm.trans hq)
        exact hk ▸ ih p hp he ha'

/-- below an attribute type there are only attribute types -/
theorem attribute_below (h : s.Coherent) (hd : s.get? t = some d) (ha : a ∈ s.supertypes t)
    (hk : s.HasKind a .attribute) : d.kind = .attribute := by
  obtain ⟨e, he, hk⟩ := hk
  have hne : a ≠ s.metaTypes.thingRoot := by
    rintro rfl
    obtain ⟨f, hf, hfk⟩ := h.thingRoot_hasKind
    rw [Option.some.inj (he.symm.trans hf), hfk] at hk
    cases hk
  obtain ⟨e', he', hk'⟩ := h.kind_of_supertype hd ha hne
  rw [← hk', ← Option.some.inj (he.symm.trans he'), hk]

/-- above one of the five types there are only such types -/
theorem isMeta_of_above (h : s.Coherent) (ht : s.isMeta t) (ha : a ∈ s.supertypes t) : s.isMeta a := by
  induction t using h.indexed.supertype_induction with
  | _ t ih =>
    rcases h.indexed.mem_supertypes_iff.1 ha with ⟨rfl, -⟩ | ⟨p, hp, ha'⟩
    · exact ht
    · obtain rfl := h.root_parent ht hp
      exact ih _ hp (thingRoot_isMeta s) ha'

end Coherent

/-! ## Edits -/

/-- an edit that leaves the five types alone has to see to the other elements -/
theorem Coherent.edited (h : s.Coherent) (hi : s'.Indexed) (hmeta : s'.metaTypes = s.metaTypes)
    (hroot : ∀ m, s.isMeta m → s'.get? m = s.get? m ∧ s'.directSupertype? m = s.directSupertype? m)
    (hrefs : ∀ t d, s'.get? t = some d → s'.RefsDefined d)
    (hparent : ∀ t d, s'.get? t = some d → ¬ s.isMeta t →
      ∃ p, s'.directSupertype? t = some p ∧ p ≠ s.metaTypes.thingRoot ∧ s'.HasKind p d.kind) : s'.Coherent := by
  refine ⟨hi, hrefs, by rw [hmeta]; exact h.nodup, ?_, ?_⟩
  · intro m hm
    rw [hmeta] at hm ⊢
    obtain ⟨hg, hp⟩ := hroot m (isMeta_iff.2 hm)
    exact ⟨hg.trans (h.roots m hm).1, hp.trans (h.roots m hm).2⟩
  · intro t d hd ht
    rw [isMeta_iff, hmeta, ← isMeta_iff] at ht
    rw [hmeta]
    exact hparent t d hd ht

theorem insert_coherent (h : s.Coherent) (hi : s.insert t d p = .ok s') (hn : s.get? t = none)
    (hd : s.RefsDefined d) (hp : p ≠ s.metaTypes.thingRoot) (hk : s.HasKind p d.kind) : s'.Coherent := by
  have hget := get?_insert hi
  have hpar := directSupertype?_insert hi h.indexed hn
  have hkind : ∀ x k, s.HasKind x k → s'.HasKind x k := by
    rintro x k ⟨e, he, hek⟩
    have hx : x ≠ t := by
      rintro rfl
      simp [hn] at he
    exact ⟨e, by rw [hget, if_neg hx, he], hek⟩
  refine h.edited (insert_indexed hi h.indexed hn) (tables_insert hi).1 ?_ ?_ ?_
  · intro m hm
    obtain ⟨e, he⟩ := h.root_defined hm
    have hmt : m ≠ t := by
      rintro rfl
      simp [hn] at he
    rw [hget, hpar, if_neg hmt, if_neg hmt]
    exact ⟨rfl, rfl⟩
  · intro x e he
    rw [hget] at he
    split at he
    · exact (Option.some.inj he ▸ hd).mono fun y k _ hy => hkind y k hy
    · exact (h.refs x e he).mono fun y k _ hy => hkind y k hy
  · intro x e he hx
    rw [hget] at he
    rw [hpar]
    split at he
    · rename_i hxt
      rw [if_pos hxt, ← Option.some.inj he]
      exact ⟨p, rfl, hp, hkind _ _ hk⟩
    · rename_i hxt
      rw [if_neg hxt]
      obtain ⟨q, hq, hne, hqk⟩ := h.parented x e he hx
      exact ⟨q, hq, hne, hkind _ _ hqk⟩

theorem hasKind_redefine (hd : s.get? t = some d) (hk : d'.kind = d.kind) (x : TypeId) (k : Kind) :
    (s.redefine t d').HasKind x k ↔ s.HasKind x k := by
  simp only [HasKind, get?_redefine]
  by_cases hx : x = t
  · simp [hx, hd, hk]
  · simp [hx]

theorem redefine_coherent (h : s.Coherent) (hd : s.get? t = some d) (ht : ¬ s.isMeta t) (hl : d'.label = d.label)
    (hk : d'.kind = d.kind) (hr : s.RefsDefined d') : (s.redefine t d').Coherent := by
  have hkind := hasKind_redefine hd hk
  refine h.edited (redefine_indexed h.indexed hd hl hk) rfl ?_ ?_ ?_
  · intro m hm
    have hmt : m ≠ t := fun he => ht (he ▸ hm)
    rw [get?_redefine, if_neg hmt]
    exact ⟨rfl, rfl⟩
  · intro x e he
    rw [get?_redefine] at he
    split at he
    · exact (Option.some.inj he ▸ hr).mono fun y k _ => (hkind y k).2
    · exact (h.refs x e he).mono fun y k _ => (hkind y k).2
  · intro x e he hx
    have he' : ∃ e', s.get? x = some e' ∧ e'.kind = e.kind := by
      rw [get?_redefine] at he
      split at he
      · rename_i hxt
        exact ⟨d, hxt ▸ hd, by rw [← Option.some.inj he, hk]⟩
      · exact ⟨e, he, rfl⟩
    obtain ⟨e', he', hek⟩ := he'
    obtain ⟨q, hq, hne, hqk⟩ := h.parented x e' he' hx
    exact ⟨q, hq, hne, (hkind _ _).2 (hek ▸ hqk)⟩

theorem hasKind_relabel {l : Label} (hr : s.relabel t l = .ok s') (x : TypeId) (k : Kind) :
    s'.HasKind x k ↔ s.HasKind x k := by
  simp only [HasKind, get?_relabel hr]
  by_cases hx : x = t
  · simp [hx, TypeDef.kind]
  · simp [hx]

theorem relabel_coherent {l : Label} (h : s.Coherent) (hr : s.relabel t l = .ok s') (ht : ¬ s.isMeta t) :
    s'.Coherent := by
  have hkind := hasKind_relabel hr
  have hold : ∀ x e, s'.get? x = some e → ∃ e', s.get? x = some e' ∧ e'.kind = e.kind := by
    intro x e he
    rw [get?_relabel hr] at he
    split at he
    · rename_i hxt
      obtain ⟨d, hd, rfl⟩ := Option.map_eq_some_iff.1 he
      exact ⟨d, hxt ▸ hd, rfl⟩
    · exact ⟨e, he, rfl⟩
  refine h.edited (relabel_indexed hr h.indexed) (tables_relabel hr).1 ?_ ?_ ?_
  · intro m hm
    have hmt : m ≠ t := fun he => ht (he ▸ hm)
    rw [get?_relabel hr, if_neg hmt]
    exact ⟨rfl, directSupertype?_relabel hr m⟩
  · intro x e he
    rw [get?_relabel hr] at he
    split at he
    · rename_i hxt
      obtain ⟨d, hd, rfl⟩ := Option.map_eq_some_iff.1 he
      have hrefs : s.RefsDefined { d with label := l } := (h.refs t d hd).fewer (fun _ => id) (fun _ => id) fun _ => id
      exact hrefs.mono fun y k _ => (hkind y k).2
    · exact (h.refs x e he).mono fun y k _ => (hkind y k).2
  · intro x e he hx
    obtain ⟨e', he', hek⟩ := hold x e he
    obtain ⟨q, hq, hne, hqk⟩ := h.parented x e' he' hx
    exact ⟨q, by rw [directSupertype?_relabel hr]; exact hq, hne, (hkind _ _).2 (hek ▸ hqk)⟩

theorem reparent_coherent {old : Option TypeId} (h : s.Coherent) (hm : s.reparent t p = .ok (old, s'))
    (ht : ¬ s.isMeta t) (hd : s.get? t = some d) (hp : p ≠ s.metaTypes.thingRoot) (hk : s.HasKind p d.kind) :
    s'.Coherent := by
  have hget := get?_reparent hm
  have hpar := directSupertype?_reparent hm h.indexed
  have hkind : ∀ x k, s'.HasKind x k ↔ s.HasKind x k := fun x k => by simp only [HasKind, hget]
  refine h.edited (reparent_indexed hm h.indexed) (tables_reparent hm).2.2.1 ?_ ?_ ?_
  · intro m hmeta
    have hmt : m ≠ t := fun he => ht (he ▸ hmeta)
    rw [hpar, if_neg hmt]
    exact ⟨hget m, rfl⟩
  · intro x e he
    rw [hget] at he
    exact (h.refs x e he).mono fun y k _ => (hkind y k).2
  · intro x e he hx
    rw [hget] at he
    rw [hpar]
    split
    · rename_i hxt
      obtain rfl := Option.some.inj (hd.symm.trans (hxt ▸ he))
      exact ⟨p, rfl, hp, (hkind _ _).2 hk⟩
    · obtain ⟨q, hq, hne, hqk⟩ := h.parented x e he hx
      exact ⟨q, hq, hne, (hkind _ _).2 hqk⟩

theorem remove_coherent (h : s.Coherent) (hr : s.remove t = .ok (d, s')) (ht : ¬ s.isMeta t)
    (href : ∀ x e, s.get? x = some e → ¬ e.RefersTo t) : s'.Coherent := by
  have hget := get?_remove hr
  have hpar := directSupertype?_remove hr h.indexed
  have hkind : ∀ x k, x ≠ t → s.HasKind x k → s'.HasKind x k := by
    rintro x k hx ⟨e, he, hek⟩
    exact ⟨e, by rw [hget, if_neg hx, he], hek⟩
  refine h.edited (remove_indexed hr h.indexed) (tables_remove hr).1 ?_ ?_ ?_
  · intro m hm
    have hmt : m ≠ t := fun he => ht (he ▸ hm)
    rw [hget, hpar, if_neg hmt, if_neg hmt]
    exact ⟨rfl, rfl⟩
  · intro x e he
    rw [hget] at he
    split at he
    · simp at he
    · exact (h.refs x e he).mono fun y k hy => hkind y k fun hyt => href x e he (hyt ▸ hy)
  · intro x e he hx
    rw [hget] at he
    rw [hpar]
    split at he
    · simp at he
    · rename_i hxt
      rw [if_neg hxt]
      obtain ⟨q, hq, hne, hqk⟩ := h.parented x e he hx
      exact ⟨q, hq, hne, hkind _ _ (fun hqt => no_subtype_of_removed hr h.indexed x (hqt ▸ hq)) hqk⟩

/-- definitions that lose declarations, in the same way each, the five types nothing -/
theorem redefineAll_coherent (h : s.Coherent) {f : TypeDef → TypeDef} (hl : ∀ d, (f d).label = d.label)
    (hk : ∀ d, (f d).kind = d.kind) (hp : ∀ d, ∀ x ∈ (f d).plays, x ∈ d.plays)
    (hr : ∀ d x, (f d).relatesRole x → d.relatesRole x) (ho : ∀ d, ∀ x ∈ (f d).owns, x ∈ d.owns)
    (hb : ∀ d : TypeDef, d.Bare → f d = d) : (s.redefineAll f).Coherent := by
  have hkind : ∀ x k, (s.redefineAll f).HasKind x k ↔ s.HasKind x k := by
    intro x k
    simp [HasKind, get?_redefineAll, hk]
  refine h.edited (redefineAll_indexed h.indexed hl hk) rfl ?_ ?_ ?_
  · intro m hm
    obtain ⟨d, hd⟩ := h.root_defined hm
    rw [get?_redefineAll, hd, Option.map_some, hb d (h.root_bare hm hd)]
    exact ⟨rfl, rfl⟩
  · intro x e he
    obtain ⟨d, hd, rfl⟩ := Option.map_eq_some_iff.1 ((get?_redefineAll s f x).symm.trans he)
    exact ((h.refs x d hd).fewer (hp d) (hr d) (ho d)).mono fun y k _ => (hkind y k).2
  · intro x e he hx
    obtain ⟨d, hd, rfl⟩ := Option.map_eq_some_iff.1 ((get?_redefineAll s f x).symm.trans he)
    obtain ⟨q, hq, hne, hqk⟩ := h.parented x d hd hx
    exact ⟨q, hq, hne, (hkind _ _).2 (by rw [hk]; exact hqk)⟩

end Schema

end ConceptGraph
