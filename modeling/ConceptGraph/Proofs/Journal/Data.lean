/-
Journal records are read from the data that they are written as.

- `Mutation.ofFields?_fields`: every kind of mutation, one by one.
- `Mutation.ofJson?_toJson`, `JournalEntry.ofJson?_toJson`, `JournalRecord.ofJson?_toJson`: the data as a whole reads as
  `reread`, which only differs in the last digit of a number, and is missing for an infinity or a NaN (`isSome_reread`).
-/
import ConceptGraph.Journal.Record
import ConceptGraph.Proofs.Text.ValueData

namespace ConceptGraph

theorem Kind.ofName?_name (k : Kind) : Kind.ofName? k.name = some k := by cases k <;> decide

/-! ## Mutations -/

namespace Mutation

/-- whether a number that it puts is neither an infinity nor a NaN -/
def isFinite : Mutation → Bool
  | putAttribute _ _ v => v.isFinite
  | _ => true

/-- what the data of the mutation reads as -/
def reread : Mutation → Option Mutation
  | putAttribute id type v => v.reread.map (putAttribute id type)
  | m => some m

/-- whether the digits of a number that it puts read as that number -/
def isExact : Mutation → Bool
  | putAttribute _ _ v => v.isExact
  | _ => true

theorem reread_of_isExact {m : Mutation} (h : m.isExact) : m.reread = some m := by
  cases m with
  | putAttribute id type v => rw [reread, Value.reread_of_isExact h, Option.map_some]
  | _ => rfl

theorem isSome_reread (m : Mutation) : m.reread.isSome = m.isFinite := by
  cases m with
  | putAttribute id type v => simp [reread, isFinite, v.isSome_reread]
  | _ => rfl

theorem type?_typeJson (t : TypeId) : type? (typeJson t) = some t := by
  rw [type?, typeJson, idJson, Json.uint64?_ofNat]
  rfl

theorem thing?_thingJson (t : ThingId) : thing? (thingJson t) = some t := by
  rw [thing?, thingJson, idJson, Json.uint64?_ofNat]
  rfl

theorem kind?_name (k : Kind) : kind? (.ofString k.name) = some k := Kind.ofName?_name k

theorem dataType?_name (d : DataType) : dataType? (.ofString d.name) = some d := DataType.ofName?_name d

section

variable {body a b c e : Json} {id t : TypeId} {x y z : ThingId} {label other : String} {kind : Kind} {domain : DataType}
  {flag : Bool} {v? : Option Value}

theorem one?_eq (hbody : body.fields? ["id"] = some [a]) (ha : type? a = some id) (f : TypeId → Mutation) :
    one? body f = some (f id) := by
  simp [one?, hbody, ha]

theorem two?_eq (hbody : body.fields? ["id", other] = some [a, b]) (ha : type? a = some id) (hb : type? b = some t)
    (f : TypeId → TypeId → Mutation) : two? other body f = some (f id t) := by
  simp [two?, hbody, ha, hb]

theorem player?_eq (hbody : body.fields? ["relation", "role", "player"] = some [a, b, c]) (ha : thing? a = some x)
    (hb : type? b = some t) (hc : thing? c = some y) (f : ThingId → TypeId → ThingId → Mutation) :
    player? body f = some (f x t y) := by
  simp [player?, hbody, ha, hb, hc]

theorem ofFields?_defineType (hbody : body.fields? ["id", "label", "kind", "supertype"] = some [a, b, c, e])
    (ha : type? a = some id) (hb : b.string? = some label) (hc : kind? c = some kind) (he : type? e = some t) :
    ofFields? "define_type" body = some (.defineType id label kind t) := by
  show (body.fields? ["id", "label", "kind", "supertype"]).bind _ = _
  rw [hbody]
  simp [ha, hb, hc, he]

theorem ofFields?_setLabel (hbody : body.fields? ["id", "label"] = some [a, b]) (ha : type? a = some id)
    (hb : b.string? = some label) : ofFields? "set_label" body = some (.setLabel id label) := by
  show (body.fields? ["id", "label"]).bind _ = _
  rw [hbody]
  simp [ha, hb]

theorem ofFields?_setAbstract (hbody : body.fields? ["id", "is_abstract"] = some [a, b]) (ha : type? a = some id)
    (hb : b.bool? = some flag) : ofFields? "set_abstract" body = some (.setAbstract id flag) := by
  show (body.fields? ["id", "is_abstract"]).bind _ = _
  rw [hbody]
  simp [ha, hb]

theorem ofFields?_setDataType (hbody : body.fields? ["id", "data_type"] = some [a, b]) (ha : type? a = some id)
    (hb : dataType? b = some domain) : ofFields? "set_data_type" body = some (.setDataType id domain) := by
  show (body.fields? ["id", "data_type"]).bind _ = _
  rw [hbody]
  simp [ha, hb]

theorem ofFields?_setRegex (hbody : body.fields? ["id", "pattern"] = some [a, b]) (ha : type? a = some id)
    (hb : b.string? = some label) : ofFields? "set_regex" body = some (.setRegex id label) := by
  show (body.fields? ["id", "pattern"]).bind _ = _
  rw [hbody]
  simp [ha, hb]

theorem ofFields?_createThing (hbody : body.fields? ["id", "type_id"] = some [a, b]) (ha : thing? a = some x)
    (hb : type? b = some t) : ofFields? "create_thing" body = some (.createThing x t) := by
  show (body.fields? ["id", "type_id"]).bind _ = _
  rw [hbody]
  simp [ha, hb]

theorem ofFields?_putAttribute (hbody : body.fields? ["id", "type_id", "value"] = some [a, b, c]) (ha : thing? a = some x)
    (hb : type? b = some t) (hc : Value.ofJson? true c = v?) :
    ofFields? "put_attribute" body = v?.map (.putAttribute x t) := by
  show (body.fields? ["id", "type_id", "value"]).bind _ = _
  rw [hbody]
  cases v? <;> simp [ha, hb, hc]

theorem ofFields?_setHas (hbody : body.fields? ["owner", "attribute", "relation"] = some [a, b, c])
    (ha : thing? a = some x) (hb : thing? b = some y) (hc : thing? c = some z) :
    ofFields? "set_has" body = some (.setHas x y z) := by
  show (body.fields? ["owner", "attribute", "relation"]).bind _ = _
  rw [hbody]
  simp [ha, hb, hc]

theorem ofFields?_unsetHas (hbody : body.fields? ["owner", "attribute"] = some [a, b]) (ha : thing? a = some x)
    (hb : thing? b = some y) : ofFields? "unset_has" body = some (.unsetHas x y) := by
  show (body.fields? ["owner", "attribute"]).bind _ = _
  rw [hbody]
  simp [ha, hb]

theorem ofFields?_deleteThing (hbody : body.fields? ["id"] = some [a]) (ha : thing? a = some x) :
    ofFields? "delete_thing" body = some (.deleteThing x) := by
  show (body.fields? ["id"]).bind _ = _
  rw [hbody]
  simp [ha]

end

theorem nodup_fields (m : Mutation) : (m.fields.map Prod.fst).Nodup := by cases m <;> simp [fields]

/-- **A mutation** is read from its fields under its name. -/
theorem ofFields?_fields (m : Mutation) : ofFields? m.name (.record m.fields) = m.reread := by
  have hbody : ∀ {names}, m.fields.map Prod.fst = names →
    (Json.record m.fields).fields? names = some (m.fields.map Prod.snd) := Json.fields?_record m.nodup_fields
  cases m with
  | defineType id label kind supertype =>
    exact ofFields?_defineType (hbody rfl) (type?_typeJson id) rfl (kind?_name kind) (type?_typeJson supertype)
  | deleteType id => exact one?_eq (hbody rfl) (type?_typeJson id) _
  | setSupertype id supertype => exact two?_eq (hbody rfl) (type?_typeJson id) (type?_typeJson supertype) _
  | setLabel id label => exact ofFields?_setLabel (hbody rfl) (type?_typeJson id) rfl
  | setAbstract id flag => exact ofFields?_setAbstract (hbody rfl) (type?_typeJson id) rfl
  | setDataType id domain => exact ofFields?_setDataType (hbody rfl) (type?_typeJson id) (dataType?_name domain)
  | setRegex id pattern => exact ofFields?_setRegex (hbody rfl) (type?_typeJson id) rfl
  | unsetRegex id => exact one?_eq (hbody rfl) (type?_typeJson id) _
  | plays id role => exact two?_eq (hbody rfl) (type?_typeJson id) (type?_typeJson role) _
  | unplay id role => exact two?_eq (hbody rfl) (type?_typeJson id) (type?_typeJson role) _
  | relates id role => exact two?_eq (hbody rfl) (type?_typeJson id) (type?_typeJson role) _
  | unrelate id role => exact two?_eq (hbody rfl) (type?_typeJson id) (type?_typeJson role) _
  | has id owned => exact two?_eq (hbody rfl) (type?_typeJson id) (type?_typeJson owned) _
  | unhas id owned => exact two?_eq (hbody rfl) (type?_typeJson id) (type?_typeJson owned) _
  | key id owned => exact two?_eq (hbody rfl) (type?_typeJson id) (type?_typeJson owned) _
  | unkey id owned => exact two?_eq (hbody rfl) (type?_typeJson id) (type?_typeJson owned) _
  | createThing id type => exact ofFields?_createThing (hbody rfl) (thing?_thingJson id) (type?_typeJson type)
  | putAttribute id type value =>
    exact ofFields?_putAttribute (hbody rfl) (thing?_thingJson id) (type?_typeJson type)
      (Value.ofJson?_toJson true value)
  | addRolePlayer relation role player =>
    exact player?_eq (hbody rfl) (thing?_thingJson relation) (type?_typeJson role) (thing?_thingJson player) _
  | removeRolePlayer relation role player =>
    exact player?_eq (hbody rfl) (thing?_thingJson relation) (type?_typeJson role) (thing?_thingJson player) _
  | setHas owner held relation =>
    exact ofFields?_setHas (hbody rfl) (thing?_thingJson owner) (thing?_thingJson held)
      (thing?_thingJson relation)
  | unsetHas owner held => exact ofFields?_unsetHas (hbody rfl) (thing?_thingJson owner) (thing?_thingJson held)
  | deleteThing id => exact ofFields?_deleteThing (hbody rfl) (thing?_thingJson id)

theorem op_not_mem (m : Mutation) : "op" ∉ m.fields.map Prod.fst := by cases m <;> simp [fields]

theorem proper_toJson (m : Mutation) : m.toJson.Proper 2 := by
  have hid : ∀ raw, (idJson raw).Proper 1 := fun raw => Json.proper_ofNat raw.toNat_lt
  refine Json.proper_record (List.forall_mem_cons.2 ⟨Json.proper_ofString _, ?_⟩)
  cases m <;> simp [fields, typeJson, thingJson, hid, Json.proper_ofString, Json.proper_bool, Value.proper_toJson]

/-- **A mutation** is read from its data. -/
theorem ofJson?_toJson (kept : Bool) (m : Mutation) : ofJson? kept m.toJson = m.reread := by
  have hkeepable : m.toJson.isKeepable 0 = true := m.proper_toJson.isKeepable (by decide)
  have htagged : m.toJson.tagged? "op" = some (.ofString m.name, .record m.fields) := Json.tagged?_record m.op_not_mem
  rw [ofJson?, hkeepable, htagged]
  exact m.ofFields?_fields

end Mutation

/-! ## Entries and records -/

namespace JournalEntry

/-- whether a number that it puts is neither an infinity nor a NaN -/
def isFinite : JournalEntry → Bool
  | applied _ m => m.isFinite
  | _ => true

/-- what the data of the entry reads as -/
def reread : JournalEntry → Option JournalEntry
  | applied txn m => m.reread.map (applied txn)
  | e => some e

/-- whether the digits of a number that it puts read as that number -/
def isExact : JournalEntry → Bool
  | applied _ m => m.isExact
  | _ => true

theorem reread_of_isExact {e : JournalEntry} (h : e.isExact) : e.reread = some e := by
  cases e with
  | applied txn m => rw [reread, Mutation.reread_of_isExact h, Option.map_some]
  | _ => rfl

theorem isSome_reread (e : JournalEntry) : e.reread.isSome = e.isFinite := by
  cases e with
  | applied txn m => simp [reread, isFinite, m.isSome_reread]
  | _ => rfl

section

variable {body a b : Json} {txn : TxnId} {m? : Option Mutation} {text : String} {time : UtcTime}

theorem ofFields?_begun (hbody : body.fields? ["txn_id"] = some [a]) (ha : a.uint64? = some txn) :
    ofFields? "begin" body = some (.begun txn) := by
  show (body.fields? ["txn_id"]).bind _ = _
  rw [hbody]
  simp [ha]

theorem ofFields?_applied (hbody : body.fields? ["txn_id", "mutation"] = some [a, b]) (ha : a.uint64? = some txn)
    (hb : Mutation.ofJson? true b = m?) : ofFields? "apply" body = m?.map (.applied txn) := by
  show (body.fields? ["txn_id", "mutation"]).bind _ = _
  rw [hbody]
  cases m? <;> simp [ha, hb]

theorem ofFields?_committed (hbody : body.fields? ["txn_id", "committed_at"] = some [a, b]) (ha : a.uint64? = some txn)
    (hb : b.string? = some text) (htime : UtcTime.ofText? text = some time) :
    ofFields? "commit" body = some (.committed txn time) := by
  show (body.fields? ["txn_id", "committed_at"]).bind _ = _
  rw [hbody]
  simp [ha, hb, htime]

end

theorem proper_toJson (e : JournalEntry) : e.toJson.Proper 3 := by
  have htxn : ∀ txn : TxnId, (Json.ofNat txn.toNat).Proper 2 := fun txn => Json.proper_ofNat txn.toNat_lt
  cases e with
  | begun txn => exact Json.proper_record (by simp [Json.proper_ofString, htxn])
  | applied txn m => exact Json.proper_record (by simp [Json.proper_ofString, htxn, m.proper_toJson])
  | committed txn time => exact Json.proper_record (by simp [Json.proper_ofString, htxn])

theorem ofJson?_eq {outer : ℕ} {j tag body : Json} {name : String} (hkeepable : j.isKeepable outer = true)
    (htagged : j.tagged? "entry" = some (tag, body)) (hname : tag.caseTag? false names = some name) :
    ofJson? outer j = ofFields? name body := by
  simp [ofJson?, hkeepable, htagged, hname]

/-- **An entry** is read from its data. -/
theorem ofJson?_toJson {outer : ℕ} (houter : 3 + outer ≤ Json.maxDepth) (e : JournalEntry) :
    ofJson? outer e.toJson = e.reread := by
  have hkeepable : e.toJson.isKeepable outer = true := e.proper_toJson.isKeepable houter
  cases e with
  | begun txn =>
    exact (ofJson?_eq hkeepable (Json.tagged?_record (by simp)) rfl).trans
      (ofFields?_begun (Json.fields?_record (by simp) rfl) (Json.uint64?_ofNat txn))
  | applied txn m =>
    exact (ofJson?_eq hkeepable (Json.tagged?_record (by simp)) rfl).trans
      (ofFields?_applied (Json.fields?_record (by simp) rfl) (Json.uint64?_ofNat txn) (m.ofJson?_toJson true))
  | committed txn time =>
    exact (ofJson?_eq hkeepable (Json.tagged?_record (by simp)) rfl).trans
      (ofFields?_committed (Json.fields?_record (by simp) rfl) (Json.uint64?_ofNat txn) rfl time.ofText?_text)

end JournalEntry

namespace JournalRecord

/-- whether a number that it puts is neither an infinity nor a NaN -/
def isFinite (r : JournalRecord) : Bool := r.entry.isFinite

/-- what the data of the record reads as -/
def reread (r : JournalRecord) : Option JournalRecord := r.entry.reread.map fun e => ⟨r.lsn, e⟩

/-- whether the digits of a number that it puts read as that number -/
def isExact (r : JournalRecord) : Bool := r.entry.isExact

theorem reread_of_isExact {r : JournalRecord} (h : r.isExact) : r.reread = some r := by
  rw [reread, JournalEntry.reread_of_isExact h, Option.map_some]

theorem isSome_reread (r : JournalRecord) : r.reread.isSome = r.isFinite := by
  simp [reread, isFinite, r.entry.isSome_reread]

theorem proper_toJson (r : JournalRecord) : r.toJson.Proper 4 :=
  Json.proper_record (by simp [Json.proper_ofNat r.lsn.toNat_lt, r.entry.proper_toJson])

theorem ofJson?_eq {j a b : Json} {lsn : Lsn} {e? : Option JournalEntry} (hj : j.fields? ["lsn", "entry"] = some [a, b])
    (ha : a.uint64? = some lsn) (hb : JournalEntry.ofJson? 1 b = e?) : ofJson? j = e?.map fun e => ⟨lsn, e⟩ := by
  cases e? <;> simp [ofJson?, hj, ha, hb]

/-- **A record** is read from its data: it is the same, but for the last digit of a number, and an infinity or a NaN
cannot be read. -/
theorem ofJson?_toJson (r : JournalRecord) : ofJson? r.toJson = r.reread :=
  ofJson?_eq (Json.fields?_record (by simp) rfl) (Json.uint64?_ofNat r.lsn) (r.entry.ofJson?_toJson (by decide))

end JournalRecord

end ConceptGraph
