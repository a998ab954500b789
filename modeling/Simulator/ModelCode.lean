import Simulator.Executors
import Simulator.RandomStreams
import Simulator.RequestPrograms
import Simulator.SnapshotTransparency

/-!
# The code of a model

The functions of a model as programs over the operations of a world.
-/

namespace Simulator

open Requests

variable {G : GoTypes} {α M : Type}

abbrev Code (G : GoTypes) (α : Type) :=
  Program (Operation G) (Reply G) α

namespace Code

def columnReply (t : G.Ty) (decode : ColumnReply (G.Value t) → Option α) :
    Reply G → Option α
  | .column bound reply =>
    if same : bound = t then decode (same ▸ reply) else none
  | _ => none

def doneReply : Reply G → Option Unit
  | .done => some ()
  | _ => none

def boolReply : Reply G → Option Bool
  | .holds answer => some answer
  | _ => none

def indexReply : Reply G → Option Nat
  | .index n => some n
  | _ => none

def entityReply : Reply G → Option EntityID
  | .entity e => some e
  | _ => none

def entitiesReply : Reply G → Option (List EntityID)
  | .entities ids => some ids
  | _ => none

def eventReply : Reply G → Option (Option (Event G))
  | .event found => some found
  | _ => none

/-- `w.Entities.Create()` -/
def create : Code G EntityID :=
  .request .create entityReply

/-- `w.Entities.Destroy(e)` -/
def destroy (e : EntityID) : Code G Bool :=
  .request (.destroy e) boolReply

/-- The entities that `w.Entities.Each` visits -/
def ids : Code G (List EntityID) :=
  .request .ids entitiesReply

/-- `simulation.RegisterComponent` -/
def registerComponent (t : G.Ty) (name : String) : Code G ComponentID := do
  let id ← Program.request (.registerComponent name) indexReply
  Program.request (.columnOf t id) doneReply
  return id

/-- `Column.Get` and `Column.GetShard` -/
def get (t : G.Ty) (id : ComponentID) (e : EntityID) : Code G (Option (G.Value t)) :=
  .request (.column t id (.get e)) <| columnReply t fun
    | .value found => some found
    | _ => none

/-- `Column.Set` -/
def set (t : G.Ty) (id : ComponentID) (e : EntityID) (v : G.Value t) : Code G Unit :=
  .request (.column t id (.set e v)) <| columnReply t fun
    | .done => some ()
    | _ => none

/-- `Column.Has` -/
def has (t : G.Ty) (id : ComponentID) (e : EntityID) : Code G Bool :=
  .request (.column t id (.has e)) <| columnReply t fun
    | .holds answer => some answer
    | _ => none

/-- `Column.SetShard`.  Where the component is present it does what `Set`
does. -/
def setShard (t : G.Ty) (id : ComponentID) (e : EntityID) (v : G.Value t) : Code G Unit := do
  if ← has t id e then set t id e v
  else .fail ("simulation: SetShard on absent component " ++
    "(membership change in parallel section)")

/-- `Column.Remove` -/
def remove (t : G.Ty) (id : ComponentID) (e : EntityID) : Code G Bool :=
  .request (.column t id (.remove e)) <| columnReply t fun
    | .holds answer => some answer
    | _ => none

/-- The entries that `Column.Each` visits -/
def each (t : G.Ty) (id : ComponentID) : Code G (List (EntityID × G.Value t)) :=
  .request (.column t id .each) <| columnReply t fun
    | .entries visited => some visited
    | _ => none

/-- `w.Components.Entities(id)` -/
def entitiesOf (id : ComponentID) : Code G (List EntityID) :=
  .request (.entitiesOf id) entitiesReply

/-- `w.Tags.Register(name)` -/
def registerTag (name : String) : Code G Tag :=
  .request (.registerTag name) indexReply

/-- `w.TagStore.Add(e, tag)` -/
def addTag (e : EntityID) (tag : Tag) : Code G Unit :=
  .request (.addTag e tag) doneReply

/-- `w.TagStore.Has(e, tag)` -/
def hasTag (e : EntityID) (tag : Tag) : Code G Bool :=
  .request (.hasTag e tag) boolReply

/-- `w.TagStore.RemoveEntity(e)` -/
def removeEntityTags (e : EntityID) : Code G Unit :=
  .request (.removeEntityTags e) doneReply

/-- `w.Clock.Tick()` -/
def tick : Code G UInt64 :=
  .request .tick fun
    | .tick n => some n
    | _ => none

/-- `w.Clock.Time()` -/
def time : Code G Float64 :=
  .request .time fun
    | .time t => some t
    | _ => none

/-- `w.Clock.Advance()` -/
def advance : Code G Unit :=
  .request .advance doneReply

/-- `w.Clock.AdvanceTime(t)` -/
def advanceTime (t : Float64) : Code G Unit :=
  .request (.advanceTime t) doneReply

/-- `w.Events.Pop()` -/
def pop : Code G (Option (Event G)) :=
  .request .pop eventReply

/-- `w.Events.Push` of an event without priority, target and payload; the
queue gives it its ID and sequence. -/
def push (type : String) (time : Float64) (source : EntityID) : Code G Unit :=
  .request (.push ⟨0, type, time, 0, 0, source, ⟨0⟩, none⟩) fun
    | .event _ => some ()
    | _ => none

/-- `w.ScheduleNow(type, nil)` -/
def scheduleNow (type : String) : Code G Unit := do
  push type (← time) ⟨0⟩

/-- `w.ScheduleIn(delay, type, nil)` -/
def scheduleIn (F : FloatOps) (delay : Float64) (type : String) : Code G Unit := do
  push type (F.add (← time) delay) ⟨0⟩

def ofExcept : Except String α → Code G α
  | .ok result => .ret result
  | .error detail => .fail detail

/-- `systemEntities` for the declarations of a system -/
def systemEntities : List ComponentID → List ComponentID → Code G (List EntityID)
  | [], [] => ids
  | [read], [] => entitiesOf read
  | [], [written] => entitiesOf written
  | reads, writes => (reads ++ writes).foldlM (fun out id => do
      return addEntities out (← entitiesOf id)) []

/-- `scheduler.runSystem` in a single shard, on the set computed anew.  The
scheduler gives the same in any number of shards for systems whose shards
keep to their own entities. -/
def runSystem (reads writes : List ComponentID)
    (run : List EntityID → M → Code G M) (m : M) : Code G M := do
  let entities ← systemEntities reads writes
  if entities = [] then return m else run entities m

/-- `tickExecutor.step` and `systemTickExecutor.step` for the function that
does the work of a tick -/
def tickStep (work : M → Code G M) (m : M) : Code G M := do
  let m ← work m
  advance
  return m

/-- `eventExecutor.step` -/
def eventStep (F : FloatOps) (handleEvent : M → Event G → Code G M) (m : M) : Code G M := do
  match ← pop with
  | none => return m
  | some ev =>
    let now ← time
    if ev.time.less now then .fail (pastEventText F.format ev now)
    else
      advanceTime ev.time
      handleEvent m ev

section Rules

variable {allowed : Operation G → Prop} {post : M → Prop} {after : Unit → Prop} {m : M}

theorem ensures_setShard {t : G.Ty} {id : ComponentID} {e : EntityID} {v : G.Value t}
    (permitted : ∀ op, allowed (.column t id op)) (holds : after ()) :
    (setShard t id e v).Ensures allowed after := by
  refine .request_bind (permitted _) fun present => ?_
  split
  · exact .request (permitted _) fun _ => holds
  · trivial

variable {type : String} {F : FloatOps} {reads writes : List ComponentID}

section

variable (readsClock : allowed .time)
  (pushes : ∀ e : Event G, e.type = type → e.payload = none → allowed (.push e)) (holds : after ())
include readsClock pushes holds

theorem ensures_scheduleNow : (scheduleNow type).Ensures allowed after :=
  Program.Ensures.request_bind readsClock fun _ =>
    Program.Ensures.request (pushes _ rfl rfl) fun _ => holds

theorem ensures_scheduleIn {delay : Float64} : (scheduleIn F delay type).Ensures allowed after :=
  Program.Ensures.request_bind readsClock fun _ =>
    Program.Ensures.request (pushes _ rfl rfl) fun _ => holds

end

theorem ensures_ofExcept {drawn : Except String α} {after : α → Prop}
    (holds : ∀ res, drawn = .ok res → after res) :
    (ofExcept drawn : Code G α).Ensures allowed after := by
  cases drawn with
  | ok res => exact holds res rfl
  | error msg => trivial

theorem ensures_systemEntities {after : List EntityID → Prop} (readsIDs : allowed .ids)
    (readsColumns : ∀ id, allowed (.entitiesOf id)) (holds : ∀ es, after es) :
    (systemEntities reads writes : Code G (List EntityID)).Ensures allowed
      after := by
  unfold systemEntities
  split
  · exact .request readsIDs holds
  · exact .request (readsColumns _) holds
  · exact .request (readsColumns _) holds
  · refine .foldlM (fun out id _ => ?_) _ (holds [])
    exact .request_bind (readsColumns id) fun _ => holds _

theorem ensures_runSystem {run : List EntityID → M → Code G M} (readsIDs : allowed .ids)
    (readsColumns : ∀ id, allowed (.entitiesOf id)) (kept : post m)
    (runs : ∀ es, (run es m).Ensures allowed post) :
    (runSystem reads writes run m).Ensures allowed post := by
  refine .seq ?_ fun es => ?_
  · exact ensures_systemEntities readsIDs readsColumns fun _ => trivial
  · split
    · exact kept
    · exact runs es

theorem ensures_tickStep {work : M → Code G M} (advances : allowed .advance)
    (ensures : (work m).Ensures allowed post) : (tickStep work m).Ensures allowed post :=
  ensures.bind fun _ holds =>
    Program.Ensures.request_bind advances fun _ => holds

theorem ensures_eventStep {handleEvent : M → Event G → Code G M} (pops : allowed .pop)
    (readsClock : allowed .time) (advances : ∀ t, allowed (.advanceTime t)) (drained : post m)
    (handles : ∀ ev, (handleEvent m ev).Ensures allowed post) :
    (eventStep F handleEvent m).Ensures allowed post := by
  refine .request_bind pops fun popped => ?_
  cases popped with
  | none => exact drained
  | some ev =>
    refine .request_bind readsClock fun now => ?_
    split
    · trivial
    · exact .request_bind (advances _) fun _ => handles ev

end Rules

end Code

end Simulator
