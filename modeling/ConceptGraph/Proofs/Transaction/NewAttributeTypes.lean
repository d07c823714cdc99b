/-
An attribute type that is new can be made with a data type at once, or without one that is set right after. That comes to
the same, since nothing stands in the way of the data type of a type that has just been made.

- `Schema.insert_untyped`: the definition of a new element can be completed afterwards.
- `new_hasInstances`, `new_related`: an element that has just been made has no instances, and what is above and below it
  declares nothing.
- `Sound.checkSetDataType_new`: so any data type is accepted for it.
- `Sound.newAttributeType`: what the two steps need and lead to, at any time.
-/
import ConceptGraph.Proofs.Transaction.SchemaOperations

namespace ConceptGraph

open Std

namespace Schema

variable {s s' : Schema} {t p : TypeId} {d d' : TypeDef}

theorem redefine_redefine (s : Schema) (t : TypeId) (d d' : TypeDef) :
    (s.redefine t d).redefine t d' = s.redefine t d' := by
  have hdefs : (s.defs.insert t d).insert t d' = s.defs.insert t d' := by
    refine ExtTreeMap.ext_getElem? fun x => ?_
    simp only [lookup_insert]
    split <;> rfl
  simp only [redefine, hdefs]

/-- an element can be made with another definition of its label and kind -/
theorem insert_redefine (hi : s.insert t d p = .ok s') (hl : d'.label = d.label) (hk : d'.kind = d.kind) :
    s.insert t d' p = .ok (s'.redefine t d') := by
  obtain ⟨hfree, h, hh, rfl⟩ := insert_eq_ok.1 hi
  have hrole : d'.isRole = d.isRole := by rw [TypeDef.isRole, TypeDef.isRole, hk]
  have hdefs : (s.defs.insert t d).insert t d' = s.defs.insert t d' :=
    congrArg Schema.defs (s.redefine_redefine t d d')
  refine insert_eq_ok.2 ⟨hl ▸ hfree, h, hrole ▸ hh, ?_⟩
  simp only [redefine, hdefs, hrole, hl]

/-- an attribute type can be made without its data type, which is then declared -/
theorem insert_untyped {l : Label} {v : DataType} (hi : s.insert t (.blank l (.attribute (some v) none)) p = .ok s') :
    ∃ s₀, s.insert t (.blank l (.attribute none none)) p = .ok s₀ ∧
      s₀.change t (·.setDataType (some v)) = .ok s' := by
  refine ⟨_, insert_redefine hi rfl rfl, change_eq_ok.2 ⟨_, by rw [get?_redefine, if_pos rfl], ?_⟩⟩
  have hd : s'.get? t = some (.blank l (.attribute (some v) none)) := by rw [get?_insert hi, if_pos rfl]
  rw [redefine_redefine]
  exact (redefine_self hd).symm

end Schema

namespace State

variable {s : State} {schema' : Schema} {first : UInt64} {n : Nat} {x y : TypeId} {d o : TypeDef}

section New

variable (h : s.Sound first n) (hn : n < 2 ^ 64) (hx : x.raw = first + UInt64.ofNat n)
  (hi : s.schema.insert x d (s.schema.metaTypes.ofKind d.kind) = .ok schema')
  (h' : ({ s with schema := schema' } : State).Sound first (n + 1))

include h hn hx hi

theorem Sound.new_leaf (y : TypeId) : schema'.directSupertype? y ≠ some x := by
  have hnone := h.get?_next hx hn (Nat.le_refl n)
  rw [Schema.directSupertype?_insert hi h.coherent.indexed hnone]
  intro hy
  split at hy
  · obtain ⟨e, he⟩ := h.coherent.root_defined (Schema.Coherent.ofKind_isMeta s.schema d.kind)
    rw [Option.some.inj hy, hnone] at he
    simp at he
  · obtain ⟨-, e, -, he, -⟩ := h.coherent.indexed.defined_of_directSupertype? hy
    simp [hnone] at he

theorem Sound.new_not_meta : ¬ schema'.isMeta x := by
  intro hm
  rw [Schema.isMeta_congr (Schema.tables_insert hi).1] at hm
  obtain ⟨e, he⟩ := h.coherent.root_defined hm
  simp [h.get?_next hx hn (Nat.le_refl n)] at he

include h'

/-- nothing is an instance of what has just been made -/
theorem Sound.new_hasInstances : ¬ ({ s with schema := schema' } : State).hasInstances x := by
  rw [hasInstances_iff h'.coherent.indexed h'.indexed]
  rintro ⟨id, b, hb, hab⟩
  have hbx : b.type = x := h'.coherent.indexed.eq_of_leaf (h.new_leaf hn hx hi) hab
  have hissued := (h.issuedThings id b hb).2
  rw [hbx, hx, issued_offset hn] at hissued
  exact Nat.lt_irrefl n hissued

/-- around it there are but elements that declare nothing -/
theorem Sound.new_related (hd : d.dataType? = none ∧ d.regex? = none) (hy : y ∈ schema'.supertypes x ∨ x ∈ schema'.supertypes y)
    (ho : schema'.get? y = some o) : o.dataType? = none ∧ o.regex? = none := by
  have hself : y = x → o.dataType? = none ∧ o.regex? = none := by
    rintro rfl
    rw [Schema.get?_insert hi, if_pos rfl] at ho
    rwa [← Option.some.inj ho]
  -- above the new element is one of the five types, and with it only such types; below it there is nothing else
  rcases hy with hy | hy
  · rcases h'.coherent.indexed.mem_supertypes_iff.1 hy with ⟨hyx, -⟩ | ⟨p, hp, hyp⟩
    · exact hself hyx
    · have hnone := h.get?_next hx hn (Nat.le_refl n)
      rw [Schema.directSupertype?_insert hi h.coherent.indexed hnone, if_pos rfl] at hp
      obtain rfl := Option.some.inj hp
      have hm : schema'.isMeta (s.schema.metaTypes.ofKind d.kind) :=
        (Schema.isMeta_congr (Schema.tables_insert hi).1).2 (Schema.Coherent.ofKind_isMeta s.schema d.kind)
      have hbare := h'.coherent.root_bare (h'.coherent.isMeta_of_above hm hyp) ho
      exact ⟨hbare.dataType?_eq, hbare.regex?_eq⟩
  · exact hself (h'.coherent.indexed.eq_of_leaf (h.new_leaf hn hx hi) hy)

/-- **Any data type** is accepted for an attribute type that has just been made. -/
theorem Sound.checkSetDataType_new (hd : d.dataType? = none ∧ d.regex? = none) (hk : d.kind = .attribute)
    (hplain : ¬ d.isImplicit) (v : DataType) :
    ({ s with schema := schema' } : State).checkSetDataType x v = .ok () := by
  have hget : schema'.get? x = some d := by rw [Schema.get?_insert hi, if_pos rfl]
  have heditable : ({ s with schema := schema' } : State).editable x .attribute = .ok d :=
    editable_eq_ok.2 ⟨⟨hget, h.new_not_meta hn hx hi, hplain⟩, hk⟩
  have hpatterns : schema'.patterns x = [] := by
    refine List.eq_nil_iff_forall_not_mem.2 fun ap hap => ?_
    obtain ⟨ha, hp⟩ := Schema.mem_patterns.1 (show (ap.1, ap.2) ∈ _ from hap)
    obtain ⟨o, ho, hop⟩ := Option.bind_eq_some_iff.1 hp
    simp [(h.new_related hn hx hi h' hd (Or.inl ha) ho).2] at hop
  have hregexes : (schema'.subtypes x).any (fun y => (schema'.get? y).any fun o => o.regex?.isSome) = false := by
    refine List.any_eq_false.2 fun y hy => ?_
    cases ho : schema'.get? y with
    | none => simp
    | some o => simp [(h.new_related hn hx hi h' hd (Or.inr (h'.coherent.indexed.mem_subtypes.1 hy)) ho).2]
  simp only [checkSetDataType, bind_eq_ok]
  refine ⟨d, heditable, ?_⟩
  rw [if_neg (h.new_hasInstances hn hx hi h')]
  simp only [hd.1, bind_eq_ok, checkEach_eq_ok, hpatterns, hregexes]
  refine ⟨(), fun y hy => ?_, ?_⟩
  · cases ho : schema'.get? y with
    | none => rfl
    | some o =>
      have hy' := (List.mem_append.1 hy).imp_right h'.coherent.indexed.mem_subtypes.1
      simp [(h.new_related hn hx hi h' hd hy' ho).1]
  · simp [pure_eq_ok]

end New

/-- **A new attribute type** with a data type can be made in two steps. -/
theorem Sound.newAttributeType {l : String} {limit : Nat} {v : DataType} {u : Unit} (h : s.Sound first n)
    (hn : n + 1 < 2 ^ 64) (hx : x.raw = first + UInt64.ofNat n)
    (hc : s.checkNewType l .attribute (s.schema.metaTypes.ofKind .attribute) limit = .ok u)
    (hi : s.schema.insert x (.blank l (.attribute (some v) none)) (s.schema.metaTypes.ofKind .attribute) = .ok schema') :
    ∃ schema₀,
      s.schema.insert x (.blank l (.attribute none none)) (s.schema.metaTypes.ofKind .attribute) = .ok schema₀ ∧
        ({ s with schema := schema₀ } : State).checkSetDataType x v = .ok () ∧
        schema₀.require x = .ok (.blank l (.attribute none none)) ∧
        schema₀.change x (·.setDataType (some v)) = .ok schema' := by
  simp only [checkNewType, bind_eq_ok] at hc
  obtain ⟨_, hl, -⟩ := hc
  obtain ⟨hl, hun⟩ := Transaction.checkLabel_ok hl
  obtain ⟨schema₀, hi₀, hchange⟩ := Schema.insert_untyped hi
  have hno : ∀ y, ¬ (TypeDef.blank l (.attribute none none)).RefersTo y :=
    Transaction.blank_refers_to_nothing fun _ => Bool.false_ne_true
  obtain ⟨_, hi₁, hstep⟩ := Transaction.insert_step h hn hx hl hun (Schema.insert_eq_ok.1 hi₀).1 hno rfl
  obtain rfl := Except.ok.inj (hi₀.symm.trans hi₁)
  refine ⟨schema₀, hi₀, ?_, ?_, hchange⟩
  · exact h.checkSetDataType_new (by omega) hx hi₀ hstep.sound ⟨rfl, rfl⟩ rfl hl v
  · rw [Schema.require_eq_ok, Schema.get?_insert hi₀, if_pos rfl]

end State

end ConceptGraph
