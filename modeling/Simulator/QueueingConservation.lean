import Simulator.ShippedModels

/-!
# Customers and work in the queueing model

The accounts are kept over lists and hold of the world by permutation.
-/

namespace Simulator.Queueing

open Requests

/-- The accounts of the pool: `pending` lists the servers whose completion is
queued. -/
structure Balanced (arrived served : Int) (waiting : Nat) (servers : List (EntityID × Busy))
    (pending : List EntityID) : Prop where
  staffed : servers ≠ []
  distinct : (servers.map Prod.fst).Nodup
  conserved : arrived = served + waiting + servers.countP fun server => server.2.b
  scheduled : ∀ id busy, (id, busy) ∈ servers → pending.count id = if busy.b then 1 else 0
  known : ∀ id ∈ pending, id ∈ servers.map Prod.fst

namespace Balanced

open List

variable {arrived served : Int} {waiting : Nat} {servers others : List (EntityID × Busy)}
  {pending : List EntityID} {id : EntityID}

theorem perm {reordered : List (EntityID × Busy)} {later : List EntityID}
    (even : Balanced arrived served waiting servers pending)
    (sameServers : servers.Perm reordered) (samePending : pending.Perm later) :
    Balanced arrived served waiting reordered later where
  staffed none := even.staffed (by rwa [none, perm_nil] at sameServers)
  distinct := ((sameServers.map Prod.fst).nodup_iff).mp even.distinct
  conserved := by
    rw [← sameServers.countP_eq]
    exact even.conserved
  scheduled id busy member := by
    rw [← samePending.count_eq]
    exact even.scheduled id busy (sameServers.mem_iff.mpr member)
  known id member :=
    (sameServers.map Prod.fst).mem_iff.mp (even.known id (samePending.mem_iff.mpr member))

theorem arrive (even : Balanced arrived served waiting servers pending) :
    Balanced (arrived + 1) served (waiting + 1) servers pending where
  staffed := even.staffed
  distinct := even.distinct
  conserved := by
    have counted := even.conserved
    omega
  scheduled := even.scheduled
  known := even.known

theorem ne_of_distinct {flag busy : Busy} {other : EntityID}
    (distinct : (((id, flag) :: others).map Prod.fst).Nodup) (mem : (other, busy) ∈ others) :
    id ≠ other := by
  rintro rfl
  exact (nodup_cons.mp distinct).1 (mem_map.mpr ⟨_, mem, rfl⟩)

theorem serve (even : Balanced arrived served (waiting + 1) ((id, ⟨false⟩) :: others) pending) :
    Balanced arrived served waiting ((id, ⟨true⟩) :: others) (id :: pending) where
  staffed := cons_ne_nil _ _
  distinct := even.distinct
  conserved := by
    have counted := even.conserved
    simp only [countP_cons, if_true, Bool.false_eq_true, if_false] at counted ⊢
    omega
  scheduled other busy mem := by
    rcases mem_cons.mp mem with eq | mem
    · cases eq
      rw [count_cons_self, even.scheduled id ⟨false⟩ mem_cons_self]
      rfl
    · rw [count_cons_of_ne (ne_of_distinct even.distinct mem)]
      exact even.scheduled other busy (mem_cons_of_mem _ mem)
  known other mem := by
    rcases mem_cons.mp mem with rfl | mem
    · exact mem_cons_self
    · exact even.known other mem

theorem finish (even : Balanced arrived served waiting servers (id :: pending)) :
    (id, ⟨true⟩) ∈ servers ∧ ∀ others, servers.Perm ((id, ⟨true⟩) :: others) →
      Balanced arrived (served + 1) waiting ((id, ⟨false⟩) :: others) pending := by
  obtain ⟨⟨_, busy⟩, mem, rfl⟩ := mem_map.mp (even.known id mem_cons_self)
  have once := even.scheduled _ _ mem
  rw [count_cons_self] at once
  obtain ⟨_ | _⟩ := busy
  · cases once
  · refine ⟨mem, fun others split => ?_⟩
    have even := even.perm split (List.Perm.refl _)
    refine ⟨cons_ne_nil _ _, even.distinct, ?_, ?_, ?_⟩
    · have counted := even.conserved
      simp only [countP_cons, if_true, Bool.false_eq_true, if_false] at counted ⊢
      omega
    · intro other busy mem
      rcases mem_cons.mp mem with eq | mem
      · cases eq
        exact Nat.succ.inj once
      · rw [← count_cons_of_ne (ne_of_distinct even.distinct mem)]
        exact even.scheduled other busy (mem_cons_of_mem _ mem)
    · intro other mem
      exact even.known other (mem_cons_of_mem _ mem)

theorem opening (staffed : servers ≠ []) (distinct : (servers.map Prod.fst).Nodup)
    (idle : ∀ server ∈ servers, server.2.b = false) : Balanced 0 0 0 servers [] where
  staffed := staffed
  distinct := distinct
  conserved := by
    have noneBusy : servers.countP (fun server => server.2.b) = 0 := by
      rw [countP_eq_zero]
      intro server mem
      rw [idle server mem]
      exact Bool.false_ne_true
    rw [noneBusy]
    rfl
  scheduled id busy mem := by
    rw [idle _ mem]
    rfl
  known _ mem := absurd mem not_mem_nil

theorem served_eq (even : Balanced arrived served waiting servers [])
    (waits : 0 < waiting → ∀ server ∈ servers, server.2.b = true) : served = arrived := by
  have idle : ∀ server ∈ servers, server.2.b = false := by
    rintro ⟨id, busy⟩ mem
    have none := even.scheduled id busy mem
    rw [count_nil] at none
    cases occupied : busy.b with
    | false => rfl
    | true => rw [occupied] at none; cases none
  have noneWaits : waiting = 0 := by
    by_contra some
    obtain ⟨server, mem⟩ := exists_mem_of_ne_nil servers even.staffed
    have busy := waits (Nat.pos_of_ne_zero some) server mem
    rw [idle server mem] at busy
    cases busy
  have noneBusy : servers.countP (fun server => server.2.b) = 0 := by
    rw [countP_eq_zero]
    intro server mem
    rw [idle server mem]
    exact Bool.false_ne_true
  have counted := even.conserved
  omega

end Balanced

variable {codec : JsonCodec Busy}

theorem busy_inLayout : (layout codec)[0]?.map Prod.snd = some (some QueueingTy.busy) :=
  rfl

def pool (w : World (queueingTypes codec)) : Column Busy :=
  w.column (some QueueingTy.busy) 0

/-- The sources of the queued `"done"` events. -/
def finishing (w : World (queueingTypes codec)) : List EntityID :=
  w.events.heap.filterMap fun e => if e.type = "done" then some e.source else none

structure Seen (metadata : Metadata) (servers : List (EntityID × Busy)) (pending : List EntityID)
    (w : World (queueingTypes codec)) : Prop where
  laid : w.Laid metadata (layout codec)
  servers : (pool w).each.Perm servers
  pending : (finishing w).Perm pending

namespace Seen

variable {α β : Type} {metadata : Metadata} {servers others : List (EntityID × Busy)}
  {pending : List EntityID} {w : World (queueingTypes codec)}
  {sortSlice : SortSlice (Event (queueingTypes codec))} {post : β → World (queueingTypes codec) → Prop}

theorem reorder (seen : Seen metadata servers pending w) (eq : servers.Perm others) :
    Seen metadata others pending w :=
  ⟨seen.laid, seen.servers.trans eq, seen.pending⟩

theorem leads_quiet {op : Operation (queueingTypes codec)}
    {decode : Reply (queueingTypes codec) → Option α} {next : α → Code (queueingTypes codec) β}
    (seen : Seen metadata servers pending w) (quiet : World.Quiet op)
    (within : op.Within (layout codec)) (rest : ∀ v after, Seen metadata servers pending after →
      after.Leads sortSlice True (next v) post) :
    w.Leads sortSlice True (Program.request op decode >>= next) post := by
  refine Program.meets_request_bind fun reply after v ran _ => rest v after ?_
  obtain ⟨comps, es⟩ := World.run_quiet quiet ran
  refine ⟨seen.laid.run within ran, ?_, ?_⟩
  · have eq : pool after = pool w := World.column_congr (by rw [comps]) _
    rw [eq]
    exact seen.servers
  · rw [finishing, es]
    exact seen.pending

theorem leads_set {id : EntityID} {old busy : Busy} {next : Unit → Code (queueingTypes codec) β}
    (seen : Seen metadata ((id, old) :: others) pending w)
    (rest : ∀ after, Seen metadata ((id, busy) :: others) pending after →
      after.Leads sortSlice True (next ()) post) :
    w.Leads sortSlice True (Code.set (some .busy) 0 id busy >>= next) post := by
  refine Program.meets_request_bind fun reply after _ ran _ => rest after ?_
  have es := World.events_of_run_column ran
  obtain ⟨wrote, again, stillLaid, rewritten⟩ :=
    seen.laid.run_column sortSlice busy_inLayout (.set id busy)
  cases ran.symm.trans again
  obtain ⟨rest, listed, new, _⟩ :=
    (seen.laid.consistent busy_inLayout).each_split (seen.servers.mem_iff.mpr List.mem_cons_self)
  have sameOthers : rest.Perm others := (listed.symm.trans seen.servers).cons_inv
  refine ⟨stillLaid, ?_, ?_⟩
  · have newPool : pool after = (pool w).set id busy := rewritten.self
    rw [newPool]
    exact (new busy).trans (sameOthers.cons _)
  · rw [finishing, es]
    exact seen.pending

theorem leads_push (type : String) (time : Float64) (source : EntityID)
    (seen : Seen metadata servers pending w) :
    w.Leads sortSlice True (Code.push type time source) fun _ =>
      Seen metadata servers (if type = "done" then source :: pending else pending) := by
  refine Program.meets_request fun reply after _ ran _ => ?_
  have within : (Operation.push ⟨0, type, time, 0, 0, source, ⟨0⟩, none⟩ :
    Operation (queueingTypes codec)).Within (layout codec) := rfl
  have laid := seen.laid.run within ran
  cases ran
  refine ⟨laid, seen.servers, ?_⟩
  refine ((w.events.perm_push _).filterMap _).trans ?_
  rw [List.filterMap_cons]
  by_cases done : type = "done"
  · simp only [EventQueue.push, done, if_true]
    exact seen.pending.cons source
  · simp only [EventQueue.push, done, if_false]
    exact seen.pending

end Seen

variable {F : FloatOps} {metadata : Metadata} {sortSlice : SortSlice (Event (queueingTypes codec))}
  {w : World (queueingTypes codec)}

structure Settled (metadata : Metadata) (m : Queueing) (w : World (queueingTypes codec)) :
    Prop where
  wired : m.busyID = 0
  laid : w.Laid metadata (layout codec)
  balanced : Balanced m.arrived m.served m.queue.length (pool w).each (finishing w)
  waits : m.queue ≠ [] → ∀ server ∈ (pool w).each, server.2.b = true

namespace Settled

variable {m : Queueing}

theorem of_seen {servers : List (EntityID × Busy)} {pending : List EntityID}
    (wired : m.busyID = 0) (seen : Seen metadata servers pending w)
    (balanced : Balanced m.arrived m.served m.queue.length servers pending)
    (waits : m.queue ≠ [] → ∀ server ∈ servers, server.2.b = true) : Settled metadata m w where
  wired := wired
  laid := seen.laid
  balanced := balanced.perm seen.servers.symm seen.pending.symm
  waits some server member := waits some server (seen.servers.mem_iff.mp member)

theorem seen (settled : Settled metadata m w) : Seen metadata (pool w).each (finishing w) w :=
  ⟨settled.laid, List.Perm.refl _, List.Perm.refl _⟩

end Settled

theorem leads_dispatchFrom (queue : List EntityID) {m : Queueing}
    {servers : List (EntityID × Busy)} {pending : List EntityID} (wired : m.busyID = 0)
    (seen : Seen metadata servers pending w)
    (even : Balanced m.arrived m.served queue.length servers pending) :
    w.Leads sortSlice True (dispatchFrom F m queue) (Settled metadata) := by
  induction queue generalizing m w servers pending with
  | nil => exact .of_seen wired seen even fun some => absurd rfl some
  | cons c rest ih =>
    unfold dispatchFrom
    refine Program.meets_bind_of_run (by rw [wired]; exact seen.laid.runCode_each busy_inLayout) ?_
    split
    · rename_i noneIdle
      refine .of_seen wired seen even fun _ server mem => ?_
      have busy := List.find?_eq_none.mp noneIdle server (seen.servers.mem_iff.mpr mem)
      simpa using busy
    · rename_i free flag hit
      have idle := List.find?_some hit
      have mem := seen.servers.mem_iff.mp (List.mem_of_find?_eq_some hit)
      obtain ⟨_ | _⟩ := flag
      · have apart := List.perm_cons_erase mem
        rw [wired]
        refine (seen.reorder apart).leads_set fun w seen => ?_
        refine seen.leads_quiet trivial trivial fun _ w seen => ?_
        refine seen.leads_quiet trivial trivial fun _ w seen => ?_
        refine seen.leads_quiet trivial trivial fun now w seen => ?_
        refine (seen.leads_push _ _ _).bind fun _ w seen => ?_
        exact ih rfl seen (even.perm apart (List.Perm.refl _)).serve
      · cases idle

section

variable {servers : List (EntityID × Busy)} {pending : List EntityID} {m : Queueing}
  (e : Event (queueingTypes codec)) (wired : m.busyID = 0) (seen : Seen metadata servers pending w)
include e wired seen

theorem leads_handleArrival (even : Balanced m.arrived m.served m.queue.length servers pending) :
    w.Leads sortSlice True (handleArrival F m e) (Settled metadata) := by
  refine seen.leads_quiet trivial trivial fun c w seen => ?_
  refine seen.leads_quiet trivial trivial fun _ w seen => ?_
  refine Program.Meets.bind (leads_dispatchFrom _ (by exact wired) seen ?_) ?_
  · rw [List.length_append]
    exact even.arrive
  · intro m w settled
    split
    · have scheduled (delay : Float64) : w.Leads sortSlice True (Code.scheduleIn F delay "arrival")
          fun _ => Seen metadata (pool w).each (finishing w) :=
        settled.seen.leads_quiet trivial trivial fun now w seen => seen.leads_push _ _ _
      refine (scheduled _).bind fun _ w seen => ?_
      exact .of_seen settled.wired seen settled.balanced settled.waits
    · exact settled

theorem leads_handleDone
    (even : Balanced m.arrived m.served m.queue.length servers (e.source :: pending)) :
    w.Leads sortSlice True (handleDone F m e) (Settled metadata) := by
  obtain ⟨mem, finished⟩ := even.finish
  have apart := List.perm_cons_erase mem
  unfold handleDone
  rw [wired]
  refine (seen.reorder apart).leads_set fun w seen => ?_
  exact leads_dispatchFrom _ rfl seen (finished _ apart)

end

theorem leads_step {m : Queueing} (settled : Settled metadata m w) :
    w.Leads sortSlice True (Code.eventStep F (handleEvent F) m) (Settled metadata) := by
  refine Program.meets_request_bind fun reply after found ran decoded => ?_
  have laid := settled.laid.run (show (Operation.pop).Within (layout codec) from trivial) ran
  cases popped : w.events.pop with
  | mk top rest =>
    simp only [World.run, popped] at ran
    cases ran
    cases decoded
    cases found with
    | none =>
      obtain ⟨_, rfl⟩ := EventQueue.pop_of_empty popped
      exact .of_seen settled.wired ⟨laid, settled.seen.servers, List.Perm.refl _⟩ settled.balanced settled.waits
    | some ev =>
      have taken := (EventQueue.perm_pop popped).filterMap
        fun e => if e.type = "done" then some e.source else none
      have seen : Seen metadata (pool w).each
        (rest.heap.filterMap fun e => if e.type = "done" then some e.source else none)
          { w with events := rest } := ⟨laid, List.Perm.refl _, List.Perm.refl _⟩
      have balanced := settled.balanced.perm (List.Perm.refl _) taken
      rw [List.filterMap_cons] at balanced
      refine seen.leads_quiet trivial trivial fun now w seen => ?_
      split
      · trivial
      · refine seen.leads_quiet trivial trivial fun now w seen => ?_
        unfold handleEvent
        split
        · rename_i arrival
          rw [arrival] at balanced
          exact leads_handleArrival ev settled.wired seen balanced
        · split
          · rename_i done
            rw [if_pos done] at balanced
            exact leads_handleDone ev settled.wired seen balanced
          · rename_i other
            rw [if_neg other] at balanced
            exact .of_seen settled.wired seen balanced settled.waits

theorem leads_hire {servers : List (EntityID × Busy)} (seen : Seen metadata servers [] w)
    (idle : ∀ server ∈ servers, server.2.b = false) :
    w.Leads sortSlice True (Code.create >>= fun e => Code.set (some .busy) 0 e ⟨false⟩)
      fun (_ : Unit) after => ∃ servers, Seen metadata servers [] after ∧ servers ≠ [] ∧
        ∀ server ∈ servers, server.2.b = false := by
  refine seen.leads_quiet trivial trivial fun e w seen => ?_
  refine Program.meets_request fun reply after _ ran _ => ?_
  have es := World.events_of_run_column ran
  obtain ⟨wrote, again, stillLaid, rewritten⟩ :=
    seen.laid.run_column sortSlice busy_inLayout (.set e ⟨false⟩)
  cases ran.symm.trans again
  have newPool : pool after = (pool w).set e ⟨false⟩ := rewritten.self
  refine ⟨_, ⟨stillLaid, List.Perm.refl _, ?_⟩, ?_, ?_⟩
  · rw [finishing, es]
    exact seen.pending
  · rw [newPool]
    exact Column.each_set_ne_nil _ e _
  · rintro ⟨id, busy⟩ mem
    rw [newPool] at mem
    rcases Column.mem_each_set mem with old | rfl
    · exact idle _ (seen.servers.mem_iff.mp old)
    · rfl

theorem leads_hireAll (n : Nat) (seen : Seen metadata [] [] w) :
    w.Leads sortSlice True (Program.iterate (fun () =>
        Code.create >>= fun e => Code.set (some .busy) 0 e ⟨false⟩) (n + 1) ())
      fun _ after => ∃ servers, Seen metadata servers [] after ∧ servers ≠ [] ∧
        ∀ server ∈ servers, server.2.b = false := by
  refine Program.meets_iterate_succ
    (fun _ w => ∃ servers, Seen metadata servers [] w ∧ ∀ server ∈ servers, server.2.b = false)
    ?_ ?_ n ?_
  · rintro _ w ⟨servers, seen, idle⟩
    exact leads_hire seen idle
  · rintro _ w ⟨servers, seen, _, idle⟩
    exact ⟨servers, seen, idle⟩
  · exact ⟨[], seen, fun _ mem => absurd mem List.not_mem_nil⟩

theorem withDefaults_servers_pos (c : Config) : 0 < c.withDefaults.servers := by
  unfold Config.withDefaults
  dsimp only
  split <;> omega

theorem runCode_register (metadata : Metadata)
    (sortSlice : SortSlice (Event (queueingTypes codec))) :
    ∃ w : World (queueingTypes codec), (World.new metadata).runCode sortSlice
        (Code.registerComponent (some .busy) "q.busy") = some (0, w) ∧ Seen metadata [] [] w := by
  have laid := World.laid_new (G := queueingTypes codec) metadata
  have reg : (World.new metadata).runCode sortSlice
      (Code.registerComponent (some .busy) "q.busy") = _ :=
    laid.runCode_register List.not_mem_nil (some QueueingTy.busy)
  refine ⟨_, reg, (laid.registerComponent List.not_mem_nil reg).2, ?_, List.Perm.refl _⟩
  rw [pool, World.column_of_bound (ComponentStore.cols_bind_self _ _ 0 _)]
  exact List.Perm.refl _

theorem leads_setUp (c : Config) (seed : UInt64) : (World.new metadata).Leads sortSlice True
    ((configure c).setUp seed : Code (queueingTypes codec) Queueing) (Settled metadata) := by
  have pos : 0 < (configure c).cfg.servers := withDefaults_servers_pos c
  obtain ⟨n, count⟩ : ∃ n, (configure c).cfg.servers.toNat = n + 1 :=
    Nat.exists_eq_succ_of_ne_zero (by omega)
  obtain ⟨w, reg, seen⟩ := runCode_register metadata sortSlice
  refine Program.meets_bind_of_run reg ?_
  refine seen.leads_quiet trivial trivial fun tag w seen => ?_
  rw [if_neg pos.ne']
  dsimp only
  rw [count]
  refine (leads_hireAll n seen).bind ?_
  rintro _ w ⟨servers, seen, staffed, idle⟩
  have scheduled : w.Leads sortSlice True (Code.scheduleNow "arrival")
      fun _ => Seen metadata servers [] :=
    seen.leads_quiet trivial trivial fun now w seen => seen.leads_push _ _ _
  refine scheduled.bind fun _ w seen => ?_
  have distinct := (seen.servers.map Prod.fst).nodup_iff.mp
    (seen.laid.consistent busy_inLayout).nodup_each
  exact .of_seen rfl seen (.opening staffed distinct idle) fun waits => absurd rfl waits

theorem customers_conserved {c : Config} {k : Nat} {fresh paused : (program F codec c).Sim}
    (made : (program F codec c).new sortSlice metadata = some fresh)
    (ran : (program F codec c).advance sortSlice k fresh = some paused) :
    let servers : List (EntityID × Busy) :=
      (paused.world.column (some .busy) paused.model.busyID).each
    paused.model.arrived = paused.model.served + paused.model.queue.length +
        servers.countP (fun server => server.2.b) ∧ (∀ id busy, (id, busy) ∈ servers →
        (finishing paused.world).count id = if busy.b then 1 else 0) ∧
      (paused.model.queue ≠ [] → ∀ server ∈ servers, server.2.b = true) ∧
      (paused.world.events.heap = [] → paused.model.served = paused.model.arrived) := by
  obtain ⟨⟨m, w⟩, setUp, rfl⟩ := Option.map_eq_some_iff.mp made
  obtain ⟨⟨last, final⟩, steps, rfl⟩ := Option.map_eq_some_iff.mp ran
  have opened := (leads_setUp c metadata.seed).of_run setUp
  have settled : Settled metadata last final :=
    (Program.meets_iterate (fun m w settled => leads_step settled) k opened).of_run steps
  dsimp only
  rw [settled.wired]
  refine ⟨settled.balanced.conserved, settled.balanced.scheduled, settled.waits, fun empty => ?_⟩
  have even := settled.balanced
  rw [finishing, empty] at even
  exact even.served_eq fun some => settled.waits (List.ne_nil_of_length_pos some)

abbrev sampleProgram : ModelProgram (queueingTypes ShippedModel.sampleBusyCodec) :=
  program ShippedModel.sampleEnvironment.floats ShippedModel.sampleBusyCodec
    ⟨1, .zero, .zero, .zero⟩

theorem customers_conserved_first : ∃ (fresh paused : sampleProgram.Sim) (server : EntityID),
    sampleProgram.new (fun _ events => events) ⟨"a", "queueing", "1.0.0", 7, .event⟩ = some fresh ∧
      sampleProgram.advance (fun _ events => events) 1 fresh = some paused ∧
      paused.model.arrived = 1 ∧ (finishing paused.world).count server = 1 := by
  obtain ⟨fresh, paused, server, made, ran, arrived, busy⟩ :
      ∃ (fresh paused : sampleProgram.Sim) (server : EntityID),
        sampleProgram.new (fun _ events => events) ⟨"a", "queueing", "1.0.0", 7, .event⟩ =
          some fresh ∧ sampleProgram.advance (fun _ events => events) 1 fresh = some paused ∧
        paused.model.arrived = 1 ∧ (paused.world.column (some .busy) paused.model.busyID).each[0]? =
          some (server, ⟨true⟩) := ⟨_, _, _, rfl, rfl, rfl, rfl⟩
  exact ⟨fresh, paused, server, made, ran, arrived,
    (customers_conserved made ran).2.1 _ _ (List.mem_of_getElem? busy)⟩

end Simulator.Queueing
