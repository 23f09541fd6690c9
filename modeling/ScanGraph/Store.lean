/-
The store of objects over time.

Every reference has versions in ascending order of the time from which they are
valid; the one visible at a time is the latest that is not after it.  Profiles
have no history: the one last merged holds at every time.  A declared profile
stays, and an inherited one only ever raises a level until clearance is
recalculated.

Calls are functions from stores to stores.  While the store is offline each of them
fails and there is no new store; nothing else makes a call fail, but for an observation
or a declaration on something that is not visible.

Writing an object that is visible as it is writes nothing and commits nothing.  A write
at the time of an existing version takes its place, and the commit says that the object
was updated.  An observation writes its objects one after the other, so that later ones
see what earlier ones wrote.

Walks go step by step over what is visible at one time.  Recalculating gives every
visible object without a declared profile the level that is carried to it, and reports
those whose level changed.
-/
import ScanGraph.Clearance
import ScanGraph.Store.Observation

namespace ScanGraph

/-- An entity and the time from which it is valid. -/
structure Version where
  validTime : Instant
  entity : Entity
deriving DecidableEq, Repr

/-- The objects, their clearance, and what was observed. -/
structure Store where
  versions : Table Reference (List Version)
  profiles : Table Reference Profile
  observations : List Observation
  offline : Bool
deriving DecidableEq, Repr

namespace Store

/-- The store without objects. -/
def empty : Store :=
  ⟨.empty, .empty, [], false⟩

instance : Inhabited Store :=
  ⟨empty⟩

/-! ## Reading -/

/-- The latest of some ascending versions that is not after `t`. -/
def latest (t : Instant) (vs : List Version) : Option Entity :=
  ((vs.reverse.find? (fun v => v.validTime.upTo t))).map Version.entity

/-- The entity visible at `t` under a reference. -/
def visible? (s : Store) (r : Reference) (t : Instant) : Option Entity :=
  (s.versions.get? r).bind (latest t)

/-- The references visible at `t` with their entities, in order. -/
def visible (s : Store) (t : Instant) : List (Reference × Entity) :=
  s.versions.entries.filterMap (fun e => (latest t e.2).map (fun v => (e.1, v)))

/-- The profile of a reference; without a stored one it is empty. -/
def profileOf (s : Store) (r : Reference) : Profile :=
  (s.profiles.get? r).getD (.empty r)

/-- An entity as read at `t` under its reference. -/
def snapshot (s : Store) (t : Instant) (r : Reference) (e : Entity) : Snapshot :=
  ⟨e, some (s.profileOf r), some t⟩

/-- The object visible at `t` under a reference. -/
def read? (s : Store) (r : Reference) (t : Instant) : Option Snapshot :=
  (s.visible? r t).map (s.snapshot t r)

/-- Every object visible at `t`, in order of their references. -/
def all (s : Store) (t : Instant) : List Snapshot :=
  (s.visible t).map (fun (r, e) => s.snapshot t r e)

/-- The objects visible at `t` of a type or its subtypes. -/
def ofType (s : Store) (type : ObjectType) (t : Instant) : List Snapshot :=
  (s.all t).filter (fun o => o.type.isA type)

/-! ## Walks -/

/-- The references that a step leads to from one reference. -/
def stepFrom (s : Store) (t : Instant) (step : Step) (r : Reference) : List Reference :=
  match step.direction with
  | .outgoing =>
      match (s.visible? r t).bind (fun e => e.relation? step.relation.name) with
      | some target => if (s.visible? target t).isSome then [target] else []
      | none => []
  | .incoming =>
      ((s.visible t).filter (fun (_, e) =>
        e.type.isA step.far && e.relations.contains (step.relation.name, r))).map Prod.fst

/-- The references that a step leads to from any of some references, each once. -/
def stepAll (s : Store) (t : Instant) (rs : List Reference) (step : Step) : List Reference :=
  (rs.flatMap (s.stepFrom t step)).eraseDups

/-- The references at the end of the walks along `steps` from `root`, each once and in order. -/
def reached (s : Store) (t : Instant) (root : Reference) (steps : List Step) : List Reference :=
  (steps.foldl (s.stepAll t) [root]).mergeSort Reference.precedes

/-- The objects of a type at the end of the walks along a path from a visible root. -/
def walk (s : Store) (root : Reference) (path : Path) (type : ObjectType) (t : Instant) :
    List Snapshot :=
  if (s.visible? root t).isNone then []
  else
    (s.reached t root path.steps).filterMap (fun r =>
      match s.visible? r t with
      | some e => if e.type.isA type then some (s.snapshot t r e) else none
      | none => none)

/-! ## Writing -/

/-- The versions with one put in its place; one of the same time is replaced. -/
def putVersion (v : Version) : List Version → List Version
  | [] => [v]
  | w :: rest =>
      if w.validTime = v.validTime then v :: rest
      else if v.validTime.before w.validTime then v :: w :: rest
      else w :: putVersion v rest

/-- What writing an entity at `t` changes, if anything. -/
def change? (s : Store) (e : Entity) (t : Instant) : Option CommitKind :=
  match s.visible? e.reference t with
  | none => some .created
  | some old => if old = e then none else some .updated

/-- The store with an entity written at `t`, and the commit if that changed anything. -/
def write (s : Store) (e : Entity) (t : Instant) : Store × Option Commit :=
  match s.change? e t with
  | none => (s, none)
  | some kind =>
      let vs := putVersion ⟨t, e⟩ ((s.versions.get? e.reference).getD [])
      ({ s with versions := s.versions.insert e.reference vs },
        some (.of kind e.reference t))

/-- An incoming profile takes the place of the present one. -/
def replaces (incoming : Profile) (present : Option Profile) : Bool :=
  match incoming.kind, present with
  | .declared, _ => true
  | _, none => true
  | .inherited, some p => !p.isDeclared && decide (p.level < incoming.level)
  | .empty, some _ => false

def mergeProfile (s : Store) (p : Profile) : Store :=
  if replaces p (s.profiles.get? p.reference) then
    { s with profiles := s.profiles.insert p.reference p }
  else s

/-- The result of a call that fails while the store is offline. -/
def guarded {α : Type} (s : Store) (result : Except StoreError α) : Except StoreError α :=
  if s.offline then .error (.unavailable "in-memory store switched off") else result

/-- The object visible at `t`, or why the store cannot say. -/
def get (s : Store) (r : Reference) (t : Instant) : Except StoreError (Option Snapshot) :=
  s.guarded (.ok (s.read? r t))

/-- The objects at the end of a path, or why the store cannot say. -/
def follow (s : Store) (root : Reference) (path : Path) (type : ObjectType) (t : Instant) :
    Except StoreError (List Snapshot) :=
  s.guarded (.ok (s.walk root path type t))

/-- One object put at `t` outside any observation. -/
def put (s : Store) (o : Snapshot) (t : Instant) : Store × Option Commit :=
  let (s, commit) := s.write o.entity t
  match o.profile with
  | some p => (s.mergeProfile p, commit)
  | none => (s, commit)

/-- `put`, unless the store is offline. -/
def insert (s : Store) (o : Snapshot) (t : Instant) :
    Except StoreError (Store × Option Commit) :=
  s.guarded (.ok (s.put o t))

/-- One object of an observation: its entity and its profile, which is empty if it has none. -/
def record (t : Instant) (acc : Store × List Commit) (o : Snapshot) : Store × List Commit :=
  let (s, commit) := acc.1.write o.entity t
  (s.mergeProfile (o.profile.getD (.empty o.reference)), acc.2 ++ commit.toList)

/-- The objects of an observation committed in order, and the observation kept. -/
def commit (s : Store) (o : Observation) : Store × List Commit :=
  let (s, commits) := o.result.foldl (record o.validTime) (s, [])
  ({ s with observations := s.observations ++ [o] }, commits)

/-- An observation committed, if the object it was made on is visible. -/
def observe (s : Store) (o : Observation) : Except StoreError (Store × List Commit) :=
  s.guarded (if (s.visible? o.source o.validTime).isNone then
      .error (.rejected (.unknownSource o.source))
    else .ok (s.commit o))

/-- A level declared for a visible object. -/
def declare (s : Store) (r : Reference) (level : Level) (t : Instant) : Except StoreError Store :=
  s.guarded (if (s.visible? r t).isNone then .error (.rejected (.unknownObject r))
    else .ok (s.mergeProfile (.declared r level)))

/-! ## Recalculation -/

def declaredLevels (s : Store) : ClearanceGraph.Levels :=
  (s.profiles.filter (fun _ p => p.isDeclared)).map (fun _ p => p.level)

/-- The levels that the objects visible at `t` carry over from the declared ones. -/
def carriedLevels (s : Store) (t : Instant) : ClearanceGraph.Levels :=
  (ClearanceGraph.ofEntities ((s.visible t).map Prod.snd)).propagate s.declaredLevels

/-- The profiles that the visible objects without a declared one get. -/
def recalculated (s : Store) (t : Instant) : List Profile :=
  let seeds := s.declaredLevels
  let levels := s.carriedLevels t
  ((s.visible t).filter (fun (r, _) => !seeds.contains r)).map
    (fun (r, _) => ClearanceGraph.implied levels r)

/-- Every profile of a visible object that is not declared computed anew, and the references
whose level changed, in order. -/
def recalculate (s : Store) (t : Instant) : Store × List Reference :=
  let profiles := s.recalculated t
  let changed := profiles.filter (fun p => (s.profileOf p.reference).level != p.level)
  ({ s with profiles := profiles.foldl (fun tbl p => tbl.insert p.reference p) s.profiles },
    changed.map Profile.reference)

/-- `recalculate`, unless the store is offline. -/
def recalculateProfiles (s : Store) (t : Instant) : Except StoreError (Store × List Reference) :=
  s.guarded (.ok (s.recalculate t))

end Store

end ScanGraph
