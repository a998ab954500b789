import Simulator.ColumnMap
import Simulator.ModelLayout

/-!
# What model code does to the columns

What each operation answers, and which column it leaves, in a world of a layout.
-/

namespace Simulator

open Requests Code

variable {G : GoTypes} {α β : Type}

theorem ComponentStore.bind_bound {s : ComponentStore G} {t : G.Ty}
    {id : ComponentID} {column : Column (G.Value t)}
    (bound : s.cols id = some ⟨t, column⟩) : s.bind t id column = s := by
  unfold ComponentStore.bind
  rw [← bound, Function.update_eq_self]

namespace World

def column (w : World G) (t : G.Ty) (id : ComponentID) : Column (G.Value t) :=
  (w.components.columnOf t id).getD .empty

variable {id : ComponentID} {t : G.Ty} {first second : World G}

variable {w : World G} {reply : Reply G} {after : World G} {sortSlice : SortSlice (Event G)}

theorem column_of_bound {column : Column (G.Value t)}
    (bound : w.components.cols id = some ⟨t, column⟩) : w.column t id = column := by
  rw [World.column, ComponentStore.columnOf_bound bound]
  rfl

theorem column_congr (eq : first.components.cols id = second.components.cols id)
    (t : G.Ty) : first.column t id = second.column t id := by
  simp only [World.column, ComponentStore.columnOf, eq]

theorem Alike.column_get (alike : Alike first second) {column other : Column (G.Value t)}
    (bound : first.components.cols id = some ⟨t, column⟩)
    (otherBound : second.components.cols id = some ⟨t, other⟩)
    (e : EntityID) : column.get e = other.get e := by
  have columns := alike.columns id
  rw [bound, otherBound] at columns
  cases columns with
  | bound alike => exact alike.get_eq e

structure Rewritten (w after : World G) (t : G.Ty) (id : ComponentID)
    (column : Column (G.Value t)) : Prop where
  self : after.column t id = column
  others : ∀ u other, other ≠ id → after.column u other = w.column u other

/-- A run of model code ends as described; `mayFail` says whether it may
panic instead. -/
abbrev Leads (sortSlice : SortSlice (Event G)) (mayFail : Prop)
    (code : Code G α) (post : α → World G → Prop) (w : World G) : Prop :=
  code.Meets (fun op w => w.run sortSlice op) mayFail post w

def Quiet : Operation G → Prop
  | .column .. | .columnOf .. | .registerComponent _ | .push _ | .pop => False
  | _ => True

theorem run_quiet {op : Operation G} (quiet : Quiet op)
    (ran : w.run sortSlice op = some (reply, after)) :
    after.components = w.components ∧ after.events = w.events := by
  cases op with
  | column | columnOf | registerComponent | push | pop => exact quiet.elim
  | create =>
    obtain ⟨_, _, _, rfl, rfl⟩ := create_of_run ran
    exact ⟨rfl, rfl⟩
  | destroy | alive | ids | len | componentName | entitiesOf | setResource | getResource
  | registerTag | tagName | addTag | removeTag | hasTag | removeEntityTags | peek | peekAll
  | queueLen | tick | time | advance | advanceTime | registerPayloadType =>
    cases ran
    exact ⟨rfl, rfl⟩

theorem events_of_run_column {t : G.Ty} {id : ComponentID} {op : ColumnOp (G.Value t)}
    (ran : w.run sortSlice (.column t id op) = some (reply, after)) : after.events = w.events := by
  obtain ⟨_, _, rfl, rfl⟩ := column_of_run ran
  rfl

section Bound

variable {w : World G} {column : Column (G.Value t)} {sortSlice : SortSlice (Event G)}
  (bound : w.components.cols id = some ⟨t, column⟩)
include bound

theorem runCode_get_of_bound (e : EntityID) :
    w.runCode sortSlice (get t id e) = some (column.get e, w) := by
  simp only [World.runCode, Code.get, Program.request, Program.run,
    World.run, runColumn, ComponentStore.columnOf_bound bound, ColumnOp.run,
    ComponentStore.bind_bound bound, Code.columnReply]
  rfl

theorem runCode_set_of_bound (e : EntityID) (v : G.Value t) :
    w.runCode sortSlice (set t id e v) = some ((), { w with
        components := w.components.bind t id (column.set e v) }.bumpIf !column.has e) := by
  simp only [World.runCode, Code.set, Program.request, Program.run, World.run, runColumn,
    ComponentStore.columnOf_bound bound, ColumnOp.run, Code.columnReply]
  rfl

theorem runCode_remove_of_bound (e : EntityID) :
    w.runCode sortSlice (remove t id e) = some ((column.remove e).1, { w with
        components := w.components.bind t id (column.remove e).2 }.bumpIf (column.remove e).1) := by
  simp only [World.runCode, remove, Program.request, Program.run, World.run, runColumn,
    ComponentStore.columnOf_bound bound, ColumnOp.run, columnReply]
  rfl

end Bound

namespace Laid

variable {metadata : Metadata} {layout : Layout G} {w after : World G}
  {sortSlice : SortSlice (Event G)} {mayFail : Prop} {post : β → World G → Prop} {t : G.Ty}
  {id : ComponentID}

section

variable (laid : w.Laid metadata layout) (inLayout : layout[id]?.map Prod.snd = some t)
include laid inLayout

theorem cols_eq :
    w.components.cols id = some ⟨t, w.column t id⟩ := by
  have types := laid.columnTypes id
  rw [inLayout] at types
  obtain ⟨⟨bound, column⟩, held, rfl⟩ := Option.map_eq_some_iff.mp types
  rw [column_of_bound held]
  exact held

theorem consistent : (w.column t id).Consistent :=
  laid.sound.columns id _ (laid.cols_eq inLayout)

end

theorem run_column (sortSlice : SortSlice (Event G)) (laid : w.Laid metadata layout)
    (inLayout : layout[id]?.map Prod.snd = some t) (op : ColumnOp (G.Value t)) :
    ∃ after, w.run sortSlice (.column t id op) =
        some (.column t (op.run (w.column t id)).1, after) ∧ after.Laid metadata layout ∧
      w.Rewritten after t id (op.run (w.column t id)).2.1 := by
  obtain ⟨after, ran, comps⟩ : ∃ after : World G, w.run sortSlice (.column t id op) =
        some (.column t (op.run (w.column t id)).1, after) ∧ after.components =
        w.components.bind t id (op.run (w.column t id)).2.1 := by
    simp only [World.run, runColumn, ComponentStore.columnOf_bound (laid.cols_eq inLayout)]
    exact ⟨_, rfl, rfl⟩
  have within : (Operation.column t id op).Within layout := inLayout
  refine ⟨after, ran, laid.run within ran, ?_, ?_⟩
  · apply column_of_bound
    rw [comps, ComponentStore.cols_bind_self]
  · intro u other ne
    apply column_congr
    rw [comps, ComponentStore.cols_bind_of_ne _ t _ ne]

section

variable (laid : w.Laid metadata layout) (inLayout : layout[id]?.map Prod.snd = some t)
include laid inLayout

theorem runCode_get (e : EntityID) :
    w.runCode sortSlice (get t id e) = some ((w.column t id).get e, w) :=
  runCode_get_of_bound (laid.cols_eq inLayout) e

theorem runCode_each :
    w.runCode sortSlice (each t id) = some ((w.column t id).each, w) := by
  have bound := laid.cols_eq inLayout
  simp only [World.runCode, each, Program.request, Program.run,
    World.run, runColumn, ComponentStore.columnOf_bound bound, ColumnOp.run,
    ComponentStore.bind_bound bound, columnReply]
  rfl

theorem runCode_entitiesOf :
    w.runCode sortSlice (entitiesOf id) = some ((w.column t id).entityIDs, w) := by
  have bound := laid.cols_eq inLayout
  simp only [World.runCode, entitiesOf, Program.request, Program.run,
    World.run, ComponentStore.entities, bound, entitiesReply]

end

section Rules

variable {e : EntityID}

theorem leads_get {next : Option (G.Value t) → Code G β} (laid : w.Laid metadata layout)
    (inLayout : layout[id]?.map Prod.snd = some t)
    (rest : w.Leads sortSlice mayFail (next ((w.column t id).get e)) post) :
    w.Leads sortSlice mayFail (get t id e >>= next) post :=
  Program.meets_bind_of_run (laid.runCode_get inLayout e) rest

variable {next : Bool → Code G β} {v : G.Value t}

section

variable (laid : w.Laid metadata layout) (inLayout : layout[id]?.map Prod.snd = some t)
include laid inLayout

theorem leads_set_last {last : Unit → World G → Prop}
    (holds : ∀ after : World G, after.Laid metadata layout →
      w.Rewritten after t id ((w.column t id).set e v) → last () after) :
    w.Leads sortSlice mayFail (set t id e v) last := by
  obtain ⟨after, ran, stillLaid, wrote⟩ := laid.run_column sortSlice inLayout (.set e v)
  have ended : w.runCode sortSlice (set t id e v) = some ((), after) := by
    simp only [World.runCode, Code.set, Program.request, Program.run, ran,
      ColumnOp.run, Code.columnReply]
    rfl
  exact Program.meets_of_run_eq ended (holds after stillLaid wrote)

theorem leads_set {next : Unit → Code G β} (rest : ∀ after : World G, after.Laid metadata layout →
      w.Rewritten after t id ((w.column t id).set e v) →
        after.Leads sortSlice mayFail (next ()) post) :
    w.Leads sortSlice mayFail (set t id e v >>= next) post := by
  have wrote : w.Leads sortSlice mayFail (set t id e v) fun _ after => after.Laid metadata layout ∧
        w.Rewritten after t id ((w.column t id).set e v) :=
    laid.leads_set_last inLayout fun _ stillLaid rewritten =>
      ⟨stillLaid, rewritten⟩
  exact wrote.bind fun _ after ended => rest after ended.1 ended.2

theorem leads_remove (rest : ∀ (answer : Bool) (after : World G), after.Laid metadata layout →
      w.Rewritten after t id ((w.column t id).remove e).2 →
        after.Leads sortSlice mayFail (next answer) post) :
    w.Leads sortSlice mayFail (remove t id e >>= next) post := by
  obtain ⟨after, ran, stillLaid, wrote⟩ := laid.run_column sortSlice inLayout (.remove e)
  refine Program.meets_bind_of_run ?_ (rest ((w.column t id).remove e).1 after stillLaid wrote)
  simp only [remove, Program.request, Program.run, ran, ColumnOp.run, columnReply]
  rfl

theorem leads_entitiesOf {next : List EntityID → Code G β}
    (rest : w.Leads sortSlice mayFail (next (w.column t id).entityIDs) post) :
    w.Leads sortSlice mayFail (entitiesOf id >>= next) post :=
  Program.meets_bind_of_run (laid.runCode_entitiesOf inLayout) rest

end

theorem leads_destroy (laid : w.Laid metadata layout) (rest : ∀ (answer : Bool) (after : World G),
      after.Laid metadata layout → after.components = w.components →
        after.Leads sortSlice mayFail (next answer) post) :
    w.Leads sortSlice mayFail (destroy e >>= next) post := by
  have ran : w.run sortSlice (.destroy e) = some (.holds (w.entities.destroy e).1,
        { w with entities := (w.entities.destroy e).2 }.bumpIf (w.entities.destroy e).1) := rfl
  have within : (Operation.destroy e : Operation G).Within layout := trivial
  refine Program.meets_bind_of_run ?_ (rest (w.entities.destroy e).1 _ (laid.run within ran) rfl)
  simp only [destroy, Program.request, Program.run, ran, boolReply]

theorem leads_create {next : EntityID → Code G β} (laid : w.Laid metadata layout)
    (rest : ∀ (e : EntityID) (after : World G),
      after.Laid metadata layout → after.components = w.components →
        after.Leads sortSlice True (next e) post) :
    w.Leads sortSlice True (create >>= next) post := by
  have within : (Operation.create : Operation G).Within layout := trivial
  cases created : w.entities.create with
  | none =>
    simp only [Leads, Program.Meets, create, Program.request, bind,
      Program.bind, Program.run, World.run, created]
  | some made =>
    have ran : w.run sortSlice .create = some (.entity made.1,
        { w with entities := made.2 }.bumpIf true) := by
      simp only [World.run, created]
    refine Program.meets_bind_of_run ?_ (rest made.1 _ (laid.run within ran) rfl)
    simp only [create, Program.request, Program.run, ran, entityReply]

theorem leads_registerComponent {next : ComponentID → Code G β}
    {name : String} (laid : w.Laid metadata layout) (fresh : name ∉ layout.map Prod.fst)
    (rest : ∀ after : World G, after.Laid metadata (layout ++ [(name, t)]) →
      w.Rewritten after t layout.length .empty →
        after.Leads sortSlice mayFail (next layout.length) post) :
    w.Leads sortSlice mayFail (Code.registerComponent t name >>= next)
      post := by
  have ran : w.runCode sortSlice (Code.registerComponent t name) = _ :=
    laid.runCode_register fresh t
  obtain ⟨_, stillLaid⟩ := laid.registerComponent fresh ran
  refine Program.meets_bind_of_run ran (rest _ stillLaid ⟨?_, ?_⟩)
  · exact column_of_bound (ComponentStore.cols_bind_self _ t _ _)
  · intro u other ne
    exact column_congr (ComponentStore.cols_bind_of_ne _ t _ ne) u

end Rules

theorem advanced (laid : w.Laid metadata layout) :
    ({ w with clock := w.clock.advance } : World G).Laid metadata layout :=
  laid.run (show (Operation.advance : Operation G).Within layout from trivial)
    (show w.run (fun _ es => es) .advance = _ from rfl)

end Laid

section Ticks

variable {M : Type} {m : M} {w : World G} {sortSlice : SortSlice (Event G)}
  {post : M → World G → Prop} {reads writes : List ComponentID}

theorem leads_runSystem {run : List EntityID → M → Code G M} (kept : post m w)
    (runs : ∀ es, w.Leads sortSlice True (run es m) post) :
    w.Leads sortSlice True (runSystem reads writes run m) post := by
  refine Program.meets_of_run fun res final ran => ?_
  obtain ⟨es, mid, looked, rest⟩ := runCode_bind_eq_some ran
  have reading : (Code.systemEntities reads writes : Code G _).Ensures
      (fun op => op = .ids ∨ ∃ id, op = .entitiesOf id) fun _ => True :=
    Code.ensures_systemEntities (.inl rfl) (fun id => .inr ⟨id, rfl⟩) fun _ => trivial
  obtain ⟨rfl, _⟩ := reading.run (fun after => after = w) (fun op old reply after kind eq ran => by
    rcases kind with rfl | ⟨id, rfl⟩ <;> (cases ran; exact eq)) rfl looked
  split at rest
  · cases rest
    exact kept
  · exact (runs es).of_run rest

theorem leads_tickStep {work : M → Code G M}
    (works : w.Leads sortSlice True (work m) fun m w => post m { w with clock := w.clock.advance }) :
    w.Leads sortSlice True (tickStep work m) post := by
  refine works.bind fun m w holds => ?_
  refine Program.meets_request_bind fun reply after _ ran _ => ?_
  cases ran
  exact holds

end Ticks

end World

end Simulator
