import Mathlib.Data.List.Basic
import MbedClient.ObjectTree

/-! The object list of the client as observations see it: a fixed tree of entities, each known by
its place in the lists that hold it. -/
namespace MbedClient.Observe

/-- An object, an instance of it, a resource of that, and an instance of the resource. -/
inductive Entity where
  | object (i : Nat)
  | objectInstance (i j : Nat)
  | resource (i j k : Nat)
  | resourceInstance (i j k n : Nat)
  deriving DecidableEq

inductive BaseType where
  | object | resource | objectInstance | resourceInstance
  deriving DecidableEq

namespace Entity

def baseType : Entity → BaseType
  | object .. => .object
  | objectInstance .. => .objectInstance
  | resource .. => .resource
  | resourceInstance .. => .resourceInstance

def objectIndex : Entity → Nat
  | object i | objectInstance i _ | resource i _ _ | resourceInstance i _ _ _ => i

end Entity

/-- Every object has a name and so no path is empty; a path is a C string. -/
structure Params where
  uriPath : Bytes
  uriPath_ne : uriPath ≠ []
  uriPath_clean : 0 ∉ uriPath
  operation : UInt8
  isObservable : Bool

structure ResourceParams extends Params where
  mode : Mode
  resourceType : ResourceType

structure Resource extends ResourceParams where
  supportsMultipleInstances : Bool
  instances : List ResourceParams

structure ObjectInstance extends Params where
  instanceId : UInt16
  resources : List Resource

structure Object extends Params where
  instances : List ObjectInstance

abbrev ObjectList := List Object

namespace ObjectList
variable (t : ObjectList)

def objectInstance? (i j : Nat) : Option ObjectInstance := t[i]?.bind (·.instances[j]?)

def resource? (i j k : Nat) : Option Resource := (objectInstance? t i j).bind (·.resources[k]?)

def resourceInstance? (i j k n : Nat) : Option ResourceParams :=
  (resource? t i j k).bind (·.instances[n]?)

def params? : Entity → Option Params
  | .object i => t[i]?.map (·.toParams)
  | .objectInstance i j => (objectInstance? t i j).map (·.toParams)
  | .resource i j k => (resource? t i j k).map (·.toParams)
  | .resourceInstance i j k n => (resourceInstance? t i j k n).map (·.toParams)

/-- What a resource and a resource instance have beyond that. -/
def resourceParams? : Entity → Option ResourceParams
  | .resource i j k => (resource? t i j k).map (·.toResourceParams)
  | .resourceInstance i j k n => resourceInstance? t i j k n
  | _ => none

/-- `strcmp` with the `c_str` of a `String`. -/
def hasPath (uriPath : Bytes) (e : Entity) : Bool :=
  match params? t e with
  | none => false
  | some p => p.uriPath == cStr uriPath

def isObservable (e : Entity) : Bool :=
  match params? t e with
  | none => false
  | some p => p.isObservable

def supportsMultipleInstances : Entity → Bool
  | .resource i j k => match resource? t i j k with
    | none => false
    | some r => r.supportsMultipleInstances
  | _ => false

def objects : List Entity := (List.range t.length).map Entity.object

def children : Entity → List Entity
  | .object i => match t[i]? with
    | none => []
    | some o => (List.range o.instances.length).map (Entity.objectInstance i)
  | .objectInstance i j => match objectInstance? t i j with
    | none => []
    | some x => (List.range x.resources.length).map (Entity.resource i j)
  | .resource i j k => match resource? t i j k with
    | none => []
    | some r => (List.range r.instances.length).map (Entity.resourceInstance i j k)
  | .resourceInstance .. => []

/-- An entity and what lies up to `n` levels below it, in the order of a walk through the lists. -/
def descend : Nat → Entity → List Entity
  | 0, e => [e]
  | n + 1, e => e :: (children t e).flatMap (descend n)

def subtree (e : Entity) : List Entity := descend t 3 e

/-- The entities whose observation tokens are looked at, in the order in which that happens. -/
def tokenOrder : List Entity := (objects t).flatMap (descend t 2)

end ObjectList
end MbedClient.Observe
