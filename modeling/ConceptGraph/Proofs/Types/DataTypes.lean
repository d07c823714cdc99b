/-
The data types that attribute types have, declared or inherited, and what becomes of them.

- `Reinherits`: a type is moved, itself or by an element above it, to where it inherits another type's data type.
- `perform_dataType?`: an operation leaves a type its data type, or gives it one where there was none and no instance,
  or moves it to where it inherits another.
- `Session.regexes_on_strings_iff`: regexes stay on strings, if and only if no type with a regex is ever moved to where
  it inherits anything but strings. The conformance of what is moved is that of its instances, and of the data types
  that it declares; the regexes are not looked at.
- `Session.data_type_kept_iff`: while a type has instances it keeps its data type, if and only if it is not moved to
  where it inherits another; and it never gets from one data type to another.
-/
import ConceptGraph.Proofs.Transaction.Alterations
import ConceptGraph.Proofs.Transaction.GraphEdits
import ConceptGraph.Proofs.Session.Runs

namespace ConceptGraph

open Std

/-! ## One operation -/

namespace State

variable {s : State} {op : Operation} {first : UInt64} {n : Nat} {x t : TypeId} {d d' : TypeDef}

/-- **A data type** is declared for instances that are yet to come. -/
theorem dataType?_revised (h : s.Sound first n) (ha' : (s.schema.redefine t d').Agreeing)
    (hd : s.schema.get? t = some d) (hr : Revision s op t d d') :
    (s.schema.redefine t d').dataType? x = s.schema.dataType? x ∨
      (s.schema.dataType? x = none ∧ ¬ s.hasInstances x) := by
  have hs := h.coherent.indexed
  have hsup := supertypes_redefine hs hd hr.label hr.kind x
  have hdecl := declaredDataType?_redefine s.schema t d'
  have hdt : s.schema.declaredDataType? t = d.dataType? := by rw [Schema.declaredDataType?, hd, Option.bind_some]
  by_cases hsame : d'.dataType? = d.dataType? ∨ t ∉ s.schema.supertypes x
  · -- above the type nothing else is declared than before
    refine Or.inl (Schema.dataType?_congr hsup fun a ha => ?_)
    rw [hdecl]
    split
    · rename_i hat
      subst hat
      rw [hdt, hsame.resolve_right (not_not.2 ha)]
    · rfl
  · obtain ⟨hne, htx⟩ := not_or.1 hsame
    rw [not_not] at htx
    obtain ⟨hnone, hempty⟩ := hr.dataType.resolve_left hne
    cases hx : s.schema.dataType? x with
    | none => exact Or.inr ⟨rfl, fun hinst => hempty (hasInstances_above hs h.indexed htx hinst)⟩
    | some v =>
      -- what counted before is declared elsewhere
      obtain ⟨a, ha, hv⟩ := h.agreeing.dataType?_eq_some.1 hx
      have hat : a ≠ t := by
        rintro rfl
        rw [hdt, hnone] at hv
        simp at hv
      exact Or.inl (ha'.dataType?_eq_some.2 ⟨a, hsup ▸ ha, by rw [hdecl, if_neg hat, hv]⟩)

/-- **The value** of an instance is of the data type of any type that it is of. -/
theorem Sound.dataType?_of_instance (h : s.Sound first n) {id : ThingId} {b : Thing} {v : DataType}
    (hb : s.graph.bare? id = some b) (hx : x ∈ s.schema.supertypes b.type) (hv : s.schema.dataType? x = some v) :
    ∃ w, b.value? = some w ∧ w.dataType = v := by
  have hs := h.coherent.indexed
  obtain ⟨a, hax, hav⟩ := h.agreeing.dataType?_eq_some.1 hv
  have habove : a ∈ s.schema.supertypes b.type := hs.supertypes_trans hx hax
  -- what declares a data type is an attribute type, so that the instance is an attribute
  obtain ⟨w, hw⟩ := h.value?_of_below hb habove (Schema.kind_of_declaredDataType? hav)
  refine ⟨w, hw, Option.some.inj ((h.instances.valued id b w hb hw).symm.trans ?_)⟩
  exact h.agreeing.dataType?_eq_some.2 ⟨a, habove, hav⟩

end State

namespace Alteration

open State

variable {s : State} {schema' : Schema} {old : TypeId → Prop} {op : Operation} {first : UInt64} {n : Nat}
  {x : TypeId} {d d' : TypeDef}

/-- **The data type** of an element that there is before and after -/
theorem dataType? (ha : Alteration old s op schema') (h : s.Sound first n) (hs' : schema'.Indexed)
    (hag' : schema'.Agreeing) (hd : s.schema.get? x = some d) (hd' : schema'.get? x = some d') :
    schema'.dataType? x = s.schema.dataType? x ∨ (s.schema.dataType? x = none ∧ ¬ s.hasInstances x) ∨
      ∃ t p, op = .setSupertype t p ∧ s.schema.InheritsThrough x t ∧ schema'.dataType? x = s.schema.dataType? p := by
  have hs := h.coherent.indexed
  cases ha with
  | enriched hmore =>
    exact Or.inl (Schema.dataType?_congr (hmore.declares.supertypes hs hs' hd) fun a ha =>
      (hmore.declares.declared hs ha).1)
  | revised hdt hr => exact (dataType?_revised h hag' hdt hr).imp_right Or.inl
  | @moved t p _ hm =>
    by_cases hx : s.schema.InheritsThrough x t
    · exact Or.inr (Or.inr ⟨t, p, rfl, hx, hm.dataType?_through hs hs' h.agreeing hag' hx⟩)
    · exact Or.inl (hm.dataType?_kept hs hs' h.agreeing hag' hx)
  | @removed t _ hw hleaf _ =>
    have hx : ¬ s.schema.Gone t x := fun hx => by simp [hw.gone x hx] at hd'
    exact Or.inl (Schema.dataType?_congr (supertypes_without hw h hs' hleaf hx) fun a ha =>
      (declared_without hw (not_gone_above h hleaf hx ha)).1)

/-- **A regex** has been there before, or is set for strings. -/
theorem regex (ha : Alteration old s op schema') (hd' : schema'.get? x = some d')
    (hre : d'.regex?.isSome) : ∃ d, s.schema.get? x = some d ∧
      (d.regex?.isSome ∨ ∃ source, op = .setRegex x source ∧ s.schema.dataType? x = some .string) := by
  cases ha with
  | enriched hmore =>
    cases hd : s.schema.get? x with
    | none =>
      rw [hmore.plain x d' hd hd'] at hre
      cases hre
    | some d =>
      obtain ⟨e, he, hle⟩ := hmore.declares.defs x d hd
      obtain rfl := Option.some.inj (hd'.symm.trans he)
      exact ⟨d, rfl, Or.inl (hle.regex ▸ hre)⟩
  | @revised _ t d e hd hr =>
    rw [Schema.get?_redefine] at hd'
    split at hd'
    · rename_i hxt
      obtain rfl := Option.some.inj hd'
      subst hxt
      exact ⟨d, hd, hr.regex hre⟩
    · exact ⟨d', hd', Or.inl hre⟩
  | moved hm => exact ⟨d', (hm.get? x).symm.trans hd', Or.inl hre⟩
  | removed hw _ _ =>
    obtain ⟨-, d, hd, rfl⟩ := hw.get?.1 hd'
    exact ⟨d, hd, Or.inl (by rwa [Schema.regex?_withdraw] at hre)⟩

end Alteration

/-- regexes are only there for strings -/
def State.RegexesOnStrings (s : State) : Prop := ∀ x d, s.schema.get? x = some d → d.regex?.isSome →
  s.schema.dataType? x = some .string

/-- the operation moves `x`, or an element above it from which it inherits its data type, to where it inherits `v` -/
def Operation.Reinherits (op : Operation) (t : Transaction) (x : TypeId) (v : Option DataType) : Prop :=
  ∃ a p r, op = .setSupertype a p ∧ (t.perform op).1 = .ok r ∧ t.working.schema.InheritsThrough x a ∧
    t.working.schema.dataType? p = v

/-- a type with a regex is moved to where it does not inherit strings -/
def Operation.Unstrings (op : Operation) (t : Transaction) : Prop :=
  ∃ x d v, t.working.schema.get? x = some d ∧ d.regex?.isSome ∧ op.Reinherits t x v ∧ v ≠ some .string

/-- the type is moved to where it inherits another data type -/
def Operation.Retypes (op : Operation) (t : Transaction) (x : TypeId) : Prop :=
  ∃ v, op.Reinherits t x v ∧ v ≠ t.working.schema.dataType? x

/-- the event is one that takes strings away from a regex, in the open transaction -/
def Event.Unstrings (e : Event) (s : Session) : Prop :=
  ∃ op t, e = .perform op ∧ s.writer = some t ∧ op.Unstrings t

namespace Transaction

open State

variable {first : UInt64} {n : Nat} {t : Transaction} {op : Operation} {x : TypeId} {d d' : TypeDef} {r : Reply}
  {v : Option DataType}

/-- the type has the other data type then, and its definition and all that is below it as before -/
theorem reinherited (h : t.Sound first n) (hfit : n + drawn t (t.perform op).2 < 2 ^ 64) (hop : op.Reinherits t x v) :
    (t.perform op).2.working.schema.dataType? x = v ∧
      (t.perform op).2.working.schema.get? x = t.working.schema.get? x ∧
      ∀ y, x ∈ t.working.schema.supertypes y → x ∈ (t.perform op).2.working.schema.supertypes y := by
  obtain ⟨a, p, r, rfl, hok, hx, rfl⟩ := hop
  have hs := h.working.coherent.indexed
  have h' := (perform_sound h _ hfit).working
  have hm := perform_moves h hok
  refine ⟨hm.dataType?_through hs h'.coherent.indexed h.working.agreeing h'.agreeing hx, hm.get? x, fun y hy => ?_⟩
  exact (hm.mem_supertypes hs h'.coherent.indexed (hs.supertypes_trans hy hx.1)).2 (Or.inl ⟨hy, hx.1⟩)

/-- the data type after a schema operation that has been done -/
theorem edited_dataType? (h : t.Sound first n) (hfit : n + drawn t (t.perform op).2 < 2 ^ 64) (hop : op.editsSchema)
    (hok : (t.perform op).1 = .ok r) (hd : t.working.schema.get? x = some d)
    (hd' : (t.perform op).2.working.schema.get? x = some d') :
    (t.perform op).2.working.schema.dataType? x = t.working.schema.dataType? x ∨
      (t.working.schema.dataType? x = none ∧ ¬ t.working.hasInstances x) ∨
      ∃ v, op.Reinherits t x v ∧ (t.perform op).2.working.schema.dataType? x = v := by
  obtain ⟨k, hstep, ha⟩ := perform_alters h hfit hop hok
  refine (ha.dataType? h.working hstep.sound.coherent.indexed hstep.sound.agreeing hd hd').imp_right
    (Or.imp_right ?_)
  rintro ⟨a, p, heq, hx, hv⟩
  exact ⟨_, ⟨a, p, r, heq, hok, hx, rfl⟩, hv⟩

/-! ### Regexes -/

/-- **Regexes** stay on strings, unless the operation takes the strings away. -/
theorem perform_regexesOnStrings (h : t.Sound first n) (hfit : n + drawn t (t.perform op).2 < 2 ^ 64)
    (ht : t.Everywhere RegexesOnStrings) (hop : ¬ op.Unstrings t) :
    (t.perform op).2.Everywhere RegexesOnStrings := by
  refine perform_everywhere h hfit ht (fun r hedit hok x d' hd' hre => ?_) fun _ _ => ht.working
  obtain ⟨k, -, ha⟩ := perform_alters h hfit hedit hok
  obtain ⟨d, hd, hold⟩ := ha.regex hd' hre
  have hstring : t.working.schema.dataType? x = some .string := by
    rcases hold with hold | ⟨-, -, hset⟩
    · exact ht.working x d hd hold
    · exact hset
  rcases edited_dataType? h hfit hedit hok hd hd' with hv | ⟨hv, -⟩ | ⟨v, hv, hv'⟩
  · exact hv.trans hstring
  · simp [hv] at hstring
  · -- the type is moved, so its regex has been there before
    rcases hold with hold | ⟨_, rfl, -⟩
    · rw [hv']
      exact not_not.1 fun hne => hop ⟨x, d, v, hd, hold, hv, hne⟩
    · obtain ⟨_, _, _, heq, -⟩ := hv
      cases heq

theorem not_regexesOnStrings (h : t.Sound first n) (hfit : n + drawn t (t.perform op).2 < 2 ^ 64)
    (hop : op.Unstrings t) : ¬ RegexesOnStrings (t.perform op).2.working := by
  obtain ⟨x, d, v, hd, hre, hv, hne⟩ := hop
  obtain ⟨hv', hget, -⟩ := reinherited h hfit hv
  exact fun hall => hne (hv'.symm.trans (hall x d (hget.trans hd) hre))

/-! ### Types with instances -/

/-- a type with instances is one that there is -/
theorem defined_of_hasInstances (h : t.Sound first n) (hx : t.working.hasInstances x) :
    ∃ d, t.working.schema.get? x = some d := by
  have hs := h.working.coherent.indexed
  obtain ⟨id, b, -, hxb⟩ := (hasInstances_iff hs h.working.indexed).1 hx
  obtain ⟨-, d, -, hd, -⟩ := hs.defined_of_mem hxb
  exact ⟨d, hd⟩

variable (h : t.Sound first n) (hfit : n + drawn t (t.perform op).2 < 2 ^ 64) (hx : t.working.hasInstances x)

include h hfit hx

/-- **A type with instances** keeps its data type through an operation, or is moved to where it inherits one. -/
theorem perform_dataType? (hback : ∀ name, op ≠ .rollbackTo name) (hx' : (t.perform op).2.working.hasInstances x) :
    (t.perform op).2.working.schema.dataType? x = t.working.schema.dataType? x ∨
      ∃ v, op.Reinherits t x v ∧ (t.perform op).2.working.schema.dataType? x = v := by
  rcases perform_edits h hfit hback with ⟨hedit, r, hok⟩ | ⟨graph', hw, -⟩
  · obtain ⟨d, hd⟩ := defined_of_hasInstances h hx
    obtain ⟨d', hd'⟩ := defined_of_hasInstances (perform_sound h op hfit) hx'
    exact (edited_dataType? h hfit hedit hok hd hd').imp_right fun hv => hv.resolve_left fun hn => hn.2 hx
  · exact Or.inl (by rw [hw])

/-- the other data type that the type inherits is that of its instances, if it is one and if there was one -/
theorem eq_of_reinherits {v w : DataType} (hop : op.Reinherits t x (some w))
    (hv : t.working.schema.dataType? x = some v) : w = v := by
  obtain ⟨hw, -, hbelow⟩ := reinherited h hfit hop
  obtain ⟨id, b, hb, hxb⟩ := (hasInstances_iff h.working.coherent.indexed h.working.indexed).1 hx
  have hb' : (t.perform op).2.working.graph.bare? id = some b := by
    obtain ⟨a, p, r, rfl, hok, -⟩ := hop
    obtain ⟨k, -, -, -, hstep⟩ := (performed_of_ok h hfit hok).schemaDone rfl
    rw [hstep.graph, hb]
  obtain ⟨u, hu, rfl⟩ := h.working.dataType?_of_instance hb hxb hv
  obtain ⟨u', hu', rfl⟩ := (perform_sound h op hfit).working.dataType?_of_instance hb' (hbelow b.type hxb) hw
  rw [Option.some.inj (hu.symm.trans hu')]

end Transaction

/-! ## Runs -/

namespace Session

variable {config : SessionConfig} {ids : Option IdSource} {journal : Option Journal} {s : Session} {es : List Event}
  {t : Transaction} {op : Operation} {x : TypeId}

/-- **Regexes are on strings** in all states along a run, if and only if no type with a regex is ever moved to where it
does not inherit strings. -/
theorem regexes_on_strings_iff (hs : start config ids journal = .ok s) (hfit : s.issued es < 2 ^ 64) :
    (∀ p, p <+: es → (s.run p).Everywhere State.RegexesOnStrings) ↔
      ∀ p e, p ++ [e] <+: es → ¬ e.Unstrings (s.run p) := by
  refine everywhere_iff hs hfit (fun x d hd hre => ?_)
    (fun _ _ _ ht hfit hall hop => Transaction.perform_regexesOnStrings ht hfit hall hop)
    fun _ _ _ ht hfit hop => Transaction.not_regexesOnStrings ht hfit hop
  rw [(Schema.bootstrap_bare (MetaTypes.nodup_take _) hd).regex?_eq] at hre
  cases hre

/-- nicks that are names, which are strings, and have a regex; then they are no names any more -/
def unstrungNicks : List Event :=
  [.begin, .perform (.putAttributeType "name" (some .string)), .perform (.putAttributeType "nick" none),
    .perform (.setSupertype ⟨7⟩ ⟨6⟩), .perform (.setRegex ⟨7⟩ "[a-z]+"), .perform (.setSupertype ⟨7⟩ ⟨4⟩)]

set_option maxRecDepth 10000 in
theorem unstrungNicks_regex_on_nothing : blank.issued unstrungNicks < 2 ^ 64 ∧
    ¬ ∀ p, p <+: unstrungNicks → (blank.run p).Everywhere State.RegexesOnStrings := by
  have hfit : blank.issued unstrungNicks < 2 ^ 64 := by decide +kernel
  obtain ⟨t, hw, ⟨d, hd, hre⟩, hok, hx, hp⟩ : ∃ t ∈ (blank.run unstrungNicks.dropLast).writer,
      (∃ d ∈ t.working.schema.get? ⟨7⟩, d.regex?.isSome) ∧
      (t.perform (.setSupertype ⟨7⟩ ⟨4⟩)).1 = .ok .done ∧ t.working.schema.InheritsThrough ⟨7⟩ ⟨7⟩ ∧
      t.working.schema.dataType? ⟨4⟩ ≠ some .string := by decide +kernel
  refine ⟨hfit, fun hall => (regexes_on_strings_iff start_testing hfit).1 hall unstrungNicks.dropLast _
    (List.prefix_refl _) ⟨_, t, rfl, hw, ⟨7⟩, d, _, hd, hre, ⟨⟨7⟩, ⟨4⟩, .done, rfl, hok, hx, rfl⟩, hp⟩⟩

/-- **The data type** of a type with instances stays as it is through any operation that does not return to a savepoint,
if and only if the type is not moved to where it inherits another; and one data type never becomes another. -/
theorem data_type_kept_iff (hs : start config ids journal = .ok s) (hw : (s.run es).writer = some t)
    (hfit : s.issued (es ++ [.perform op]) < 2 ^ 64) (hback : ∀ name, op ≠ .rollbackTo name)
    (hx : t.working.hasInstances x) (hx' : (t.perform op).2.working.hasInstances x) :
    ((t.perform op).2.working.schema.dataType? x = t.working.schema.dataType? x ↔ ¬ op.Retypes t x) ∧
      ∀ v w, t.working.schema.dataType? x = some v → (t.perform op).2.working.schema.dataType? x = some w → w = v := by
  have ht := writer_sound hs hfit (List.prefix_refl _) hw
  have hfit := fits_during hfit hw (List.prefix_refl _)
  have hcases := Transaction.perform_dataType? ht hfit hx hback hx'
  refine ⟨⟨?_, fun hop => ?_⟩, fun v w hv hv' => ?_⟩
  · rintro hsame ⟨v, hv, hne⟩
    exact hne ((Transaction.reinherited ht hfit hv).1.symm.trans hsame)
  · rcases hcases with hsame | ⟨v, hv, hv'⟩
    · exact hsame
    · exact not_not.1 fun hne => hop ⟨v, hv, hv' ▸ hne⟩
  · rcases hcases with hsame | ⟨u, hu, hu'⟩
    · exact Option.some.inj (hv'.symm.trans (hsame.trans hv))
    · obtain rfl := hu'.symm.trans hv'
      exact Transaction.eq_of_reinherits ht hfit hx hu hv

/-- names, nicks and pet names, each below the other, and a pet name -/
def petNames : List Event :=
  [.begin, .perform (.putAttributeType "name" (some .string)), .perform (.putAttributeType "nick" none),
    .perform (.setSupertype ⟨7⟩ ⟨6⟩), .perform (.putAttributeType "pet-name" (some .string)),
    .perform (.setSupertype ⟨8⟩ ⟨7⟩), .perform (.putAttribute ⟨8⟩ (.string "x"))]

set_option maxRecDepth 10000 in
theorem petNames_data_type_lost : ∃ t, (blank.run petNames).writer = some t ∧
    blank.issued (petNames ++ [.perform (.setSupertype ⟨7⟩ ⟨4⟩)]) < 2 ^ 64 ∧ t.working.hasInstances ⟨7⟩ ∧
    (t.perform (.setSupertype ⟨7⟩ ⟨4⟩)).2.working.hasInstances ⟨7⟩ ∧
    (t.perform (.setSupertype ⟨7⟩ ⟨4⟩)).2.working.schema.dataType? ⟨7⟩ ≠ t.working.schema.dataType? ⟨7⟩ := by
  have hfit : blank.issued (petNames ++ [.perform (.setSupertype ⟨7⟩ ⟨4⟩)]) < 2 ^ 64 := by decide +kernel
  obtain ⟨t, hw, hx, hx', hok, hthrough, hp⟩ : ∃ t ∈ (blank.run petNames).writer, t.working.hasInstances ⟨7⟩ ∧
      (t.perform (.setSupertype ⟨7⟩ ⟨4⟩)).2.working.hasInstances ⟨7⟩ ∧
      (t.perform (.setSupertype ⟨7⟩ ⟨4⟩)).1 = .ok .done ∧ t.working.schema.InheritsThrough ⟨7⟩ ⟨7⟩ ∧
      t.working.schema.dataType? ⟨4⟩ ≠ t.working.schema.dataType? ⟨7⟩ := by decide +kernel
  refine ⟨t, hw, hfit, hx, hx', fun hsame => ?_⟩
  exact (data_type_kept_iff start_testing hw hfit (fun _ => nofun) hx hx').1.1 hsame
    ⟨_, ⟨⟨7⟩, ⟨4⟩, .done, rfl, hok, hthrough, rfl⟩, hp⟩

end Session

end ConceptGraph
