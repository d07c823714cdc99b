/-
Labels that users may not give, and what comes of operations that are called with one.

To put a type is to get it where it is there already, and that is looked up before the rules for labels are asked.

- `Operation.gives?`: the label that an operation gives to an element. `Operation.asksFor?`: the label and kind of the
  element that is the answer where there is one.
- `putType_refused`, `setLabel_refused`, `putAttributeType_refused`: with such a label they are refused, unless what is
  asked for is there.
- `Sound.made_or_meta`: if it is there, then it was made for a record of an ownership, or it is one of the types to start
  from and the session has a limit below the length of its label.
- `Session.reserved_refused_iff`: both together, in any transaction of a session.
-/
import ConceptGraph.Proofs.Types.IdleEdits
import ConceptGraph.Proofs.Types.UserLabels

namespace ConceptGraph

open Std

namespace Operation

/-- the label that the operation gives to an element, if it does -/
def gives? : Operation → Option Label
  | .putEntityType l | .putRelationType l | .putRole l | .putAttributeType l _ | .setLabel _ l => some l
  | _ => none

/-- label and kind of the element that is the answer of the operation if it is there, as it is -/
def asksFor? : Operation → Option (Label × Kind)
  | .putEntityType l => some (l, .entity)
  | .putRelationType l => some (l, .relation)
  | .putRole l => some (l, .role)
  | .putAttributeType l none => some (l, .attribute)
  | _ => none

theorem gives?_of_asksFor? {op : Operation} {l : Label} {k : Kind} (h : op.asksFor? = some (l, k)) :
    op.gives? = some l := by
  cases op with
  | putEntityType | putRelationType | putRole => exact congrArg (Option.map Prod.fst) h
  | putAttributeType _ v =>
    cases v with
    | none => exact congrArg (Option.map Prod.fst) h
    | some v => cases h
  | _ => cases h

end Operation

namespace State

variable {first : UInt64} {n limit : Nat} {s : State} {x : TypeId} {d : TypeDef}

/-- the labels of the types to start from are proper, but for their length -/
theorem Sound.fits_of_meta (h : s.Sound first n) (hm : s.schema.isMeta x) (hd : s.schema.get? x = some d)
    (hl : ¬ d.label.Proper limit) : limit < d.label.toList.length := by
  refine Nat.lt_of_not_le fun hfits => hl ?_
  have hplain : d.label.toList ≠ [] ∧ ¬ Label.isReserved d.label ∧ Label.scopeMark ∉ d.label.toList := by
    have hlabel := (Schema.get?_bootstrap h.coherent.nodup).1 (h.coherent.root_def hm hd)
    rcases hlabel with ⟨-, rfl⟩ | ⟨-, rfl⟩ | ⟨-, rfl⟩ | ⟨-, rfl⟩ | ⟨-, rfl⟩ <;> decide +kernel
  exact ⟨hplain.1, hplain.2.1, hplain.2.2, hfits⟩

/-- **An element with such a label** was made by the library, or the limit is below what the library needs itself. -/
theorem Sound.made_or_meta (h : s.Sound first n) (hnamed : s.schema.Named limit) (hd : s.schema.get? x = some d)
    (hl : ¬ d.label.Proper limit) : (∃ r, s.schema.HasRecord r ∧ r.Made x) ∨
      s.schema.isMeta x ∧ limit < d.label.toList.length := by
  by_cases hm : s.schema.isMeta x
  · exact Or.inr ⟨hm, h.fits_of_meta hm hd hl⟩
  · rcases hnamed x d hd hm with himplicit | hproper
    · exact Or.inl (h.recorded.reserved x d hd himplicit)
    · exact absurd hproper hl

/-- an attribute type with such a label is one of the types to start from, and has no data type -/
theorem Sound.dataType?_of_improper (h : s.Sound first n) (hnamed : s.schema.Named limit)
    (hd : s.schema.get? x = some d) (hk : d.kind = .attribute) (hl : ¬ d.label.Proper limit) :
    s.schema.isMeta x ∧ s.schema.dataType? x = none := by
  have hm : s.schema.isMeta x := by
    rcases h.made_or_meta hnamed hd hl with ⟨r, hr, hmade⟩ | ⟨hm, -⟩
    · obtain ⟨e, hb⟩ := h.recorded.backed r hr
      rcases hmade with rfl | rfl | rfl
      · rw [Option.some.inj (hd.symm.trans hb.relation)] at hk
        cases hk
      · rw [Option.some.inj (hd.symm.trans hb.ownerRole)] at hk
        cases hk
      · rw [Option.some.inj (hd.symm.trans hb.valueRole)] at hk
        cases hk
    · exact hm
  refine ⟨hm, Option.eq_none_iff_forall_not_mem.2 fun v hv => ?_⟩
  obtain ⟨a, ha, hav⟩ := h.agreeing.dataType?_eq_some.1 hv
  obtain ⟨e, he, hev⟩ := Option.bind_eq_some_iff.1 hav
  rw [(h.coherent.root_bare (h.coherent.isMeta_of_above hm ha) he).dataType?_eq] at hev
  cases hev

end State

namespace Transaction

variable {α β : Type} {first : UInt64} {n limit : Nat} {t : Transaction} {l : Label} {k : Kind} {x : TypeId}
  {d : TypeDef}

/-! ## Refused -/

/-- the edit is refused, and leaves all as it is -/
def Refused (e : Edit α) (t : Transaction) : Prop := ∃ err, outcome e t = (.error err, t)

namespace Refused

variable {e : Edit β} {f : State → Except ConceptError β} {g : β → Edit α} {b : β}

theorem bind (h : Refused e t) : Refused (e >>= g) t := by
  obtain ⟨err, herr⟩ := h
  exact ⟨err, by rw [outcome_bind, herr]⟩

theorem map {h : β → α} (he : Refused e t) : Refused (h <$> e) t := by
  rw [map_eq_pure_bind]
  exact he.bind

theorem ask (hf : ∀ b, f t.working ≠ .ok b) : Refused (ask f >>= g) t := by
  cases h : f t.working with
  | error err => exact ⟨err, outcome_refused h⟩
  | ok b => exact absurd h (hf b)

theorem after (he : outcome e t = (.ok b, t)) (hg : Refused (g b) t) : Refused (e >>= g) t := by
  rwa [Refused, outcome_bind, he]

end Refused

/-- where it is not there, no element is found of that label, or one of another kind that has the label -/
theorem existing_missing (hs : t.working.schema.Indexed)
    (hno : ¬ ∃ x d, t.working.schema.get? x = some d ∧ d.label = l ∧ d.kind = k) :
    Idle (existing l k) none t ∨ Refused (existing l k) t := by
  cases hl : t.working.schema.idOf? l with
  | none => exact Or.inl (by rw [Idle, existing, outcome_ask, hl]; rfl)
  | some x =>
    obtain ⟨d, hd, hlabel⟩ := (hs.label l x).1 hl
    have hk : ¬ d.kind = k := fun hk => hno ⟨x, d, hd, hlabel, hk⟩
    refine Or.inr ⟨.labelAlreadyInUse l, ?_⟩
    rw [existing, outcome_ask]
    simp only [hl, hd, if_neg hk]
    rfl

/-- what is not there is not made -/
theorem putType_refused (hs : t.working.schema.Indexed) (hl : ¬ l.Proper t.labelLimit) {body : TypeBody}
    (hno : ¬ ∃ x d, t.working.schema.get? x = some d ∧ d.label = l ∧ d.kind = body.kind) :
    Refused (putType l body) t := by
  rcases existing_missing hs hno with hnone | hrefused
  · refine .after hnone (.after (outcome_look _ t) (.after (b := t) rfl (.ask fun u hc => ?_)))
    simp only [State.checkNewType, bind_eq_ok, State.checkLabel_iff] at hc
    obtain ⟨-, hproper, -⟩ := hc
    exact hl hproper
  · exact hrefused.bind

theorem putAttributeType_refused (hs : t.working.schema.Indexed) (hl : ¬ l.Proper t.labelLimit) {v : Option DataType}
    (hno : ¬ ∃ x d, t.working.schema.get? x = some d ∧ d.label = l ∧ d.kind = .attribute) :
    Refused (putAttributeType l v) t := by
  rcases existing_missing hs hno with hnone | hrefused
  · exact .after hnone (putType_refused hs hl hno)
  · exact hrefused.bind

/-- with a data type: an attribute type of such a label has none, and users may not give it one -/
theorem putAttributeType_typed_refused (h : t.Sound first n) (hnamed : t.Named limit) (hl : ¬ l.Proper limit)
    (v : DataType) : Refused (putAttributeType l (some v)) t := by
  by_cases hex : ∃ x d, t.working.schema.get? x = some d ∧ d.label = l ∧ d.kind = .attribute
  · obtain ⟨x, d, hd, rfl, hk⟩ := hex
    obtain ⟨hmeta, hnone⟩ := h.working.dataType?_of_improper hnamed.states.1 hd hk hl
    have hfound := existing_idle ((h.working.coherent.indexed.label _ _).2 ⟨d, hd, rfl⟩) hd hk
    have hother : t.working.schema.dataType? x ≠ some v := by rw [hnone]; exact nofun
    have hset : Refused (setDataType x v) t := by
      refine .ask fun u hc => ?_
      simp only [State.checkSetDataType, bind_eq_ok, State.editable_eq_ok] at hc
      obtain ⟨_, ⟨he, -⟩, -⟩ := hc
      exact he.2.1 hmeta
    refine .after hfound (.after (outcome_look _ t) ?_)
    rw [if_pos hother]
    exact hset.bind
  · exact putAttributeType_refused h.working.coherent.indexed (hnamed.labelLimit ▸ hl) hex

theorem setLabel_refused (hl : ¬ l.Proper t.labelLimit) (a : TypeId) : Refused (setLabel a l) t := by
  refine .after (b := t) rfl (.ask fun u hc => ?_)
  simp only [State.checkSetLabel, bind_eq_ok, State.checkLabel_iff] at hc
  obtain ⟨-, -, -, hproper, -⟩ := hc
  exact hl hproper

/-- **What is not there is refused**, whichever operation asks for it. -/
theorem perform_improper_refused (h : t.Sound first n) (hnamed : t.Named limit) {op : Operation}
    (hop : op.gives? = some l) (hl : ¬ l.Proper limit)
    (hno : ¬ ∃ x d, t.working.schema.get? x = some d ∧ op.asksFor? = some (d.label, d.kind)) :
    ∃ err, t.perform op = (.error err, t) := by
  have hs := h.working.coherent.indexed
  have hl' : ¬ l.Proper t.labelLimit := hnamed.labelLimit ▸ hl
  have hmissing : ∀ {k}, op.asksFor? = some (l, k) →
      ¬ ∃ x d, t.working.schema.get? x = some d ∧ d.label = l ∧ d.kind = k := by
    rintro k hask ⟨x, d, hd, rfl, rfl⟩
    exact hno ⟨x, d, hd, hask⟩
  show Refused op.perform t
  cases op with
  | putEntityType | putRelationType | putRole =>
    obtain rfl := Option.some.inj hop
    exact (putType_refused hs hl' (hmissing rfl)).map
  | putAttributeType _ v =>
    obtain rfl := Option.some.inj hop
    cases v with
    | none => exact (putAttributeType_refused hs hl' (hmissing rfl)).map
    | some v => exact (putAttributeType_typed_refused h hnamed hl v).map
  | setLabel a _ =>
    obtain rfl := Option.some.inj hop
    exact (setLabel_refused hl' a).map
  | _ => cases hop

/-! ## Found -/

theorem putType_found (hs : t.working.schema.Indexed) (hd : t.working.schema.get? x = some d) {body : TypeBody}
    (hk : d.kind = body.kind) : Idle (putType d.label body) x t :=
  .bind (existing_idle ((hs.label _ _).2 ⟨d, hd, rfl⟩) hd hk) (.pure x)

/-- **What is there is the answer**, whatever it is called. -/
theorem perform_found (hs : t.working.schema.Indexed) {op : Operation} (hd : t.working.schema.get? x = some d)
    (hop : op.asksFor? = some (d.label, d.kind)) : t.perform op = (.ok (.type x), t) := by
  have hreply : ∀ {e : Edit TypeId}, Idle e x t → outcome (Reply.type <$> e) t = (.ok (.type x), t) := by
    intro e he
    rw [outcome_map, he]
    rfl
  cases op with
  | putEntityType | putRelationType | putRole =>
    obtain ⟨rfl, hk⟩ := Prod.mk.inj (Option.some.inj hop)
    exact hreply (putType_found hs hd hk.symm)
  | putAttributeType _ v =>
    cases v with
    | none =>
      obtain ⟨rfl, hk⟩ := Prod.mk.inj (Option.some.inj hop)
      exact hreply (.bind (existing_idle ((hs.label _ _).2 ⟨d, hd, rfl⟩) hd hk.symm) (.pure x))
    | some v => cases hop
  | _ => cases hop

end Transaction

/-! ## Sessions -/

namespace Session

open State Transaction

variable {config : SessionConfig} {ids : Option IdSource} {journal : Option Journal} {s : Session} {es : List Event}
  {t : Transaction} {op : Operation} {l : Label}

/-- **To put a label that users may not give** is refused, and changes nothing, unless what is asked for is there: then
that is the answer, and nothing changes either. What is there so was made for a record of an ownership, or it is a type to
start from whose label is above the limit. -/
theorem reserved_refused_iff (hs : start config ids journal = .ok s) (hfit : s.issued es < 2 ^ 64)
    (hw : (s.run es).writer = some t) (hop : op.gives? = some l) (hl : ¬ l.Proper config.maxLabelLen.toNat) :
    ((∃ err, t.perform op = (.error err, t)) ↔
      ¬ ∃ x d, t.working.schema.get? x = some d ∧ op.asksFor? = some (d.label, d.kind)) ∧
    ∀ x d, t.working.schema.get? x = some d → op.asksFor? = some (d.label, d.kind) →
      t.perform op = (.ok (.type x), t) ∧
      ((∃ r, t.working.schema.implicitForOwned? r.owned = some r ∧ r.Made x) ∨
        t.working.schema.isMeta x ∧ config.maxLabelLen.toNat < d.label.toList.length) := by
  have ht := (run_sound hs hfit (List.prefix_refl _)).writer hw
  have hnamed := writer_named hs hw
  have hfound : ∀ x d, t.working.schema.get? x = some d → op.asksFor? = some (d.label, d.kind) →
      t.perform op = (.ok (.type x), t) := fun x d hd hask => perform_found ht.working.coherent.indexed hd hask
  refine ⟨⟨?_, perform_improper_refused ht hnamed hop hl⟩, fun x d hd hask => ⟨hfound x d hd hask, ?_⟩⟩
  · rintro ⟨err, herr⟩ ⟨x, d, hd, hask⟩
    cases (hfound x d hd hask).symm.trans herr
  · have hlabel : d.label = l := Option.some.inj ((Operation.gives?_of_asksFor? hask).symm.trans hop)
    exact ht.working.made_or_meta hnamed.states.1 hd (hlabel ▸ hl)

/-- a person, who has a name -/
def nameOwned : List Event :=
  [.begin, .perform (.putEntityType "person"), .perform (.putAttributeType "name" (some .string)),
    .perform (.has ⟨6⟩ ⟨7⟩)]

set_option maxRecDepth 10000 in
/-- the relation type that records who has which name can be put by its label, though no type can be given that label -/
theorem nameOwned_put : blank.issued nameOwned < 2 ^ 64 ∧
    ¬ Label.Proper SessionConfig.testing.maxLabelLen.toNat "@has-name" ∧
    ∃ t, (blank.run nameOwned).writer = some t ∧ t.perform (.putRelationType "@has-name") = (.ok (.type ⟨8⟩), t) ∧
      ∃ err, t.perform (.setLabel ⟨6⟩ "@has-name") = (.error err, t) := by
  have hfit : blank.issued nameOwned < 2 ^ 64 := by decide +kernel
  have hl : ¬ Label.Proper SessionConfig.testing.maxLabelLen.toNat "@has-name" := fun h => h.plain (by decide)
  have hmade : (blank.run nameOwned).writer.map (fun t =>
      (t.working.schema.get? ⟨8⟩).map fun d => (d.label, d.kind)) = some (some ("@has-name", .relation)) := by
    decide +kernel
  obtain ⟨t, hw, hget⟩ := Option.map_eq_some_iff.1 hmade
  obtain ⟨d, hd, hlabel⟩ := Option.map_eq_some_iff.1 hget
  have hput : (Operation.putRelationType "@has-name").gives? = some "@has-name" := rfl
  have hset : (Operation.setLabel ⟨6⟩ "@has-name").gives? = some "@has-name" := rfl
  obtain ⟨-, hfound⟩ := reserved_refused_iff start_testing hfit hw hput hl
  obtain ⟨hrefused, -⟩ := reserved_refused_iff start_testing hfit hw hset hl
  exact ⟨hfit, hl, t, hw, (hfound ⟨8⟩ d hd (congrArg some hlabel.symm)).1, hrefused.2 (by rintro ⟨_, _, -, ⟨⟩⟩)⟩

end Session

end ConceptGraph
