/-
Everything that can be done in a write transaction, as data.
-/
import ConceptGraph.Session.InstanceEdits
import ConceptGraph.Session.SchemaEdits

namespace ConceptGraph

inductive Operation where
  | putEntityType (label : String)
  | putRelationType (label : String)
  | putRole (label : String)
  | putAttributeType (label : String) (dataType : Option DataType)
  | setSupertype (t supertype : TypeId)
  | setLabel (t : TypeId) (label : String)
  | setAbstract (t : TypeId) (isAbstract : Bool)
  | deleteType (t : TypeId)
  | setDataType (t : TypeId) (dataType : DataType)
  | setRegex (t : TypeId) (source : String)
  | unsetRegex (t : TypeId)
  | plays (t role : TypeId)
  | unplay (t role : TypeId)
  | relates (t role : TypeId)
  | unrelate (t role : TypeId)
  | has (t owned : TypeId)
  | unhas (t owned : TypeId)
  | key (t owned : TypeId)
  | unkey (t owned : TypeId)
  | createEntity (t : TypeId)
  | createRelation (t : TypeId)
  | putAttribute (t : TypeId) (value : Value)
  | addRolePlayer (relation : ThingId) (role : TypeId) (player : ThingId)
  | removeRolePlayer (relation : ThingId) (role : TypeId) (player : ThingId)
  | setHas (owner held : ThingId)
  | unsetHas (owner held : ThingId)
  | deleteThing (id : ThingId)
  | savepoint (name : String)
  | rollbackTo (name : String)
  | releaseSavepoint (name : String)
  deriving DecidableEq, Repr

/-- what an operation answers -/
inductive Reply where
  | done
  | type (t : TypeId)
  | thing (id : ThingId)
  | flag (b : Bool)
  deriving DecidableEq, Repr

namespace Operation

def perform : Operation → Edit Reply
  | .putEntityType label => Reply.type <$> Transaction.putEntityType label
  | .putRelationType label => Reply.type <$> Transaction.putRelationType label
  | .putRole label => Reply.type <$> Transaction.putRole label
  | .putAttributeType label dataType => Reply.type <$> Transaction.putAttributeType label dataType
  | .setSupertype t supertype => done (Transaction.setSupertype t supertype)
  | .setLabel t label => done (Transaction.setLabel t label)
  | .setAbstract t isAbstract => done (Transaction.setAbstract t isAbstract)
  | .deleteType t => done (Transaction.deleteType t)
  | .setDataType t dataType => done (Transaction.setDataType t dataType)
  | .setRegex t source => done (Transaction.setRegex t source)
  | .unsetRegex t => done (Transaction.unsetRegex t)
  | .plays t role => done (Transaction.plays t role)
  | .unplay t role => done (Transaction.unplay t role)
  | .relates t role => done (Transaction.relates t role)
  | .unrelate t role => done (Transaction.unrelate t role)
  | .has t owned => done (Transaction.has t owned)
  | .unhas t owned => done (Transaction.unhas t owned)
  | .key t owned => done (Transaction.key t owned)
  | .unkey t owned => done (Transaction.unkey t owned)
  | .createEntity t => Reply.thing <$> Transaction.createEntity t
  | .createRelation t => Reply.thing <$> Transaction.createRelation t
  | .putAttribute t value => Reply.thing <$> Transaction.putAttribute t value
  | .addRolePlayer relation role player => done (Transaction.addRolePlayer relation role player)
  | .removeRolePlayer relation role player => Reply.flag <$> Transaction.removeRolePlayer relation role player
  | .setHas owner held => Reply.thing <$> Transaction.setHas owner held
  | .unsetHas owner held => Reply.flag <$> Transaction.unsetHas owner held
  | .deleteThing id => done (Transaction.deleteThing id)
  | .savepoint name => done (Transaction.savepoint name)
  | .rollbackTo name => done (Transaction.rollbackTo name)
  | .releaseSavepoint name => done (Transaction.releaseSavepoint name)
where
  /-- the edit, with no answer but that it was done -/
  done (e : Edit Unit) : Edit Reply := (fun _ => Reply.done) <$> e

end Operation

namespace Transaction

/-- what comes of an operation, and the transaction after it -/
def perform (t : Transaction) (op : Operation) : Except ConceptError Reply × Transaction := op.perform.run.run t

end Transaction

end ConceptGraph
