import Mathlib.Logic.Function.Basic
import MbedClient.Observe.Tree
import MbedClient.Report.Handler

/-! The memory behind the object list: report handlers, observation handlers and values, with the
methods of `M2MBase` that start, stop and search observations. -/
namespace MbedClient.Observe
open Report (CFloat Call ChangedIds)

/-- The eight values of `M2MBase::Observation` are the sets of these three. -/
structure Observation where
  r : Bool := false
  oi : Bool := false
  o : Bool := false
  deriving DecidableEq

namespace Observation

def none : Observation := {}
def rAttribute : Observation := { r := true }
def oiAttribute : Observation := { oi := true }
def oAttribute : Observation := { o := true }

def union (a b : Observation) : Observation := ⟨a.r || b.r, a.oi || b.oi, a.o || b.o⟩
def minus (a b : Observation) : Observation := ⟨a.r && !b.r, a.oi && !b.oi, a.o && !b.o⟩

end Observation

/-- The rest of the report handler; a token that is NULL is empty. -/
structure ReportHandler (F : Type*) [CFloat F] extends Report.M2MReportHandler F where
  observationLevel : Observation := Observation.none
  token : Bytes := []

/-- What leaves the object tree: calls of a report handler, and messages to the
`M2MObservationHandler`. -/
inductive Output where
  | report (e : Entity) (call : Call)
  | observationToBeSent (e : Entity) (changedInstanceIds : ChangedIds) (obsNumber : UInt16)
      (sendObject : Bool)
  | valueUpdated (e : Entity)
  | resourceToBeDeleted (e : Entity)
  deriving DecidableEq

/-- There is one `M2MObservationHandler`, the interface; an object points to it or to nothing.
`published` are the resources that the CoAP library holds, `log` is what one event made leave. -/
structure Client (F : Type*) [CFloat F] where
  reportHandler : Entity → Option (ReportHandler F)
  observationHandler : Nat → Bool
  value : Entity → Bytes
  published : Entity → Bool
  log : List Output

namespace Client
variable {F : Type*} [CFloat F] (m : Client F) (t : ObjectList)

def emit (o : Output) : Client F := { m with log := m.log ++ [o] }

/-- Only an object stores the handler; every other entity hands the call to its parent. -/
def setObservationHandler (e : Entity) (handler : Bool) : Client F :=
  { m with observationHandler := Function.update m.observationHandler e.objectIndex handler }

def setReportHandler (e : Entity) (h : Option (ReportHandler F)) : Client F :=
  { m with reportHandler := Function.update m.reportHandler e h }

def observationToBeSent (e : Entity) (changedInstanceIds : ChangedIds) (obsNumber : UInt16)
    (sendObject : Bool) : Client F :=
  if m.observationHandler e.objectIndex then
    m.emit (.observationToBeSent e changedInstanceIds obsNumber sendObject)
  else m

def freeResources (e : Entity) : Client F :=
  if m.observationHandler e.objectIndex then m.emit (.resourceToBeDeleted e) else m

def observe (e : Entity) (call : Call) : Client F :=
  let m := m.emit (.report e call)
  match call with
  | .observationToBeSent ids number sendObject => m.observationToBeSent e ids number sendObject
  | _ => m

def onReportHandler (e : Entity)
    (f : Report.M2MReportHandler F → Report.M2MReportHandler F × List Call) : Client F :=
  match m.reportHandler e with
  | none => m
  | some h =>
    let p := f h.toM2MReportHandler
    p.2.foldl (fun m call => m.observe e call)
      (m.setReportHandler e (some { h with toM2MReportHandler := p.1 }))

def createReportHandler (e : Entity) : Client F :=
  match m.reportHandler e with
  | none => m.setReportHandler e (some {})
  | some _ => m

def isUnderObservation (e : Entity) : Bool :=
  match m.reportHandler e with
  | none => false
  | some h => h.isUnderObservation

def observationLevel (e : Entity) : Observation :=
  match m.reportHandler e with
  | none => Observation.none
  | some h => h.observationLevel

def observationNumber (e : Entity) : UInt16 :=
  match m.reportHandler e with
  | none => 0
  | some h => h.observationNumber

def setUnderObservation (e : Entity) (observed handler : Bool) : Client F :=
  let m := m.onReportHandler e (·.setUnderObservation observed)
  let m := m.setObservationHandler e handler
  if handler then
    if e.baseType ≠ .resourceInstance then
      let m := if observed then m.createReportHandler e else m
      m.onReportHandler e (·.setUnderObservation observed)
    else m
  else m.setReportHandler e none

def addOwnLevel (l : Observation) (e : Entity) : Client F :=
  m.setReportHandler e ((m.reportHandler e).map fun h =>
    { h with observationLevel := h.observationLevel.union l })

def removeOwnLevel (l : Observation) (e : Entity) : Client F :=
  m.setReportHandler e ((m.reportHandler e).map fun h =>
    { h with observationLevel := h.observationLevel.minus l })

/-- The overriders of the two: objects, their instances and resources hand the level down. -/
def addObservationLevel (e : Entity) (l : Observation) : Client F :=
  (t.subtree e).foldl (fun m e => m.addOwnLevel l e) m

def removeObservationLevel (e : Entity) (l : Observation) : Client F :=
  (t.subtree e).foldl (fun m e => m.removeOwnLevel l e) m

/-- The copy of a token that is not empty may fail, which leaves none. -/
def setObservationToken (e : Entity) (token : Bytes) (copied : Bool) : Client F :=
  m.setReportHandler e ((m.reportHandler e).map fun h =>
    { h with token := if copied then token else [] })

/-- `get_observation_token`, and the comparison of what it finds with a token. -/
def storesToken (token : Bytes) (e : Entity) : Bool :=
  match m.reportHandler e with
  | none => false
  | some h => !h.token.isEmpty && h.token == token

/-- `find_resource`, from the level of resource instances up. A token that is not NULL is looked
for instead of a path, but at the level of objects it must also not be empty. -/
def findInResource (uriPath : Bytes) (e : Entity) : Option Entity :=
  (t.children e).find? (t.hasPath uriPath)

def findInObjectInstance (uriPath : Bytes) (token : Option Bytes) (e : Entity) : Option Entity :=
  (t.children e).findSome? fun e =>
    match token with
    | none =>
      if t.hasPath uriPath e then some e
      else if t.supportsMultipleInstances e then findInResource t uriPath e
      else none
    | some token => if m.storesToken token e then some e else none

def findInObject (uriPath : Bytes) (token : Option Bytes) (e : Entity) : Option Entity :=
  (t.children e).findSome? fun e =>
    let hit := match token with
      | none => t.hasPath uriPath e
      | some token => m.storesToken token e
    if hit then some e else m.findInObjectInstance t uriPath token e

def findResource (uriPath : Bytes) (token : Option Bytes) : Option Entity :=
  t.objects.findSome? fun e =>
    let hit := match token with
      | none | some [] => t.hasPath uriPath e
      | some token => m.storesToken token e
    if hit then some e else m.findInObject t uriPath token e

end Client
end MbedClient.Observe
