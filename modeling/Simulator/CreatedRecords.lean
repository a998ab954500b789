import Simulator.RecordHolders

/-!
# Records of an ID that is not deleted

`Create` writes a row before it changes the map, and from then on the ID has a row.
-/

namespace Simulator

open Function

namespace Runner

variable {G : GoTypes} {M : Type}

/-- The task is a `Create`. -/
def Task.isCreate : Task → Bool
  | .create _ _ _ => true
  | _ => false

section Threads

variable {host : Host G M} {t : Nat} {m : Manager G} {claims : Option Claims} {input : Input G}
  {task : Task} {point : Point} {outcome : Outcome G} {next : Point}

theorem Progress.blank (known : ∀ mg, task.records point = some mg → mg.info.status = "created")
    (progress : Progress host t m claims input task point outcome)
    (goes : outcome.point = some next) {mg : Managed} (recorded : task.records next = some mg) :
    mg.info.status = "created" := by
  cases progress with
  | build built =>
    cases goes
    cases recorded
    exact (Manager.made_of_instantiate built).2.1
  | @insert req random now held row inserted =>
    cases goes
    cases recorded
    obtain ⟨_, _, _, sameStatus⟩ := Manager.createSimulation_eq_ok inserted
    rw [sameStatus]
    exact known held rfl
  | passes handler allowed | found looks mapped =>
    cases goes
    cases task <;> cases recorded
  | _ => cases goes <;> cases recorded

theorem Progress.looked (moves : Progress host t m claims input task point outcome)
    (goes : outcome.point = some next) (looked : next.hasLooked = true) :
    task.isCreate = true ∨ point.hasLooked = true ∨ ∃ mg, m.sims task.id = some mg := by
  cases moves with
  | passes handler ok =>
    cases goes
    cases looked
  | found looks mapped => exact .inr (.inr ⟨_, mapped⟩)
  | build built => exact .inl rfl
  | _ => cases goes <;> exact .inr (.inl rfl)

theorem Progress.inserts (undeleted : task ≠ .delete task.id)
    (progress : Progress host t m claims input task point outcome)
    (goes : outcome.point = some next) (vacant : task.vacant next = true) :
    ∃ mg row, task.records point = some mg ∧ m.rows mg.info.id = none ∧
      row.id = mg.info.id ∧ row.status = mg.info.status ∧
      outcome.manager = m.setRow row.id (some row) := by
  cases progress with
  | @insert req random now mg row inserted =>
    obtain ⟨missing, sameID, _, sameStatus⟩ := Manager.createSimulation_eq_ok inserted
    exact ⟨mg, row, rfl, missing, sameID, sameStatus, rfl⟩
  | remove => exact absurd rfl undeleted
  | passes handler allowed | found looks mapped =>
    cases goes
    cases task <;> cases vacant
  | _ => cases goes <;> cases vacant

inductive RecordAt (id : String) (m : Manager G) (fault : Option String)
    (task : Task) (point : Point) (outcome : Outcome G) : Prop
  | same (sims : outcome.manager.sims id = m.sims id) (rows : outcome.manager.rows id = m.rows id)
  | write {status : String} (own : task.id = id) (decided : task.decided point = some status)
      (written : outcome.manager = m.updateStatus fault id status)
  | insert (missing : m.rows id = none) (sims : outcome.manager.sims id = m.sims id)
      (rows : ∃ row, outcome.manager.rows id = some row)
  | put {mg : Managed} (own : task.id = id) (vacant : task.vacant point = true)
      (carried : task.carries point = some mg) (sims : outcome.manager.sims id = some mg)
      (rows : outcome.manager.rows id = m.rows id) (heap : outcome.manager.heap = m.heap)
  | place {mg : Managed} {random : Option (Fin 8 → UInt8)}
      (isReplay : task = .replay id random) (built : point = .built mg)
      (goes : outcome.point = some (.placed mg)) (sims : outcome.manager.sims id = some mg)
      (rows : outcome.manager.rows id = m.rows id)

theorem Progress.recordAt (holds : ∀ mg, point.held = some mg → m.IsFor mg.sim task.id)
    (records : ∀ mg, task.records point = some mg → mg.info.id = task.id)
    {id : String} (undeleted : task ≠ .delete id)
    (moves : Progress host t m claims input task point outcome) :
    RecordAt id m input.fault task point outcome := by
  by_cases own : task.id = id
  · subst own
    cases moves with
    | @insert req rand now mg row inserted =>
      obtain ⟨missing, sameID, _⟩ := Manager.createSimulation_eq_ok inserted
      rw [records mg rfl] at missing sameID
      refine .insert missing rfl ⟨row, ?_⟩
      change update m.rows row.id (some row) _ = some row
      rw [sameID, update_self]
    | @put req rand now mg made =>
      refine .put rfl rfl rfl ?_ rfl rfl
      change Function.update m.sims mg.info.id (some mg) _ = some mg
      rw [records mg rfl, update_self]
    | place made => exact .place rfl rfl rfl (Function.update_self _ _ _) rfl
    | announce other | announceStart | writeState | announceReplay | watchWrite =>
      exact .write rfl rfl rfl
    | remove | deleteRow | halt => exact absurd rfl undeleted
    | @replayHalt id rand mg =>
      exact .same (congrFun (m.sims_halted mg.sim) _) (congrFun (m.rows_halted mg.sim) _)
    | _ => exact .same rfl rfl
  · have eq := moves.elsewhere holds records (Ne.symm own)
    exact .same eq.sims eq.rows

theorem looked_of_decided {status : String} (decided : task.decided point = some status) :
    point.hasLooked = true ∧ task.isCreate = false := by
  cases task <;> cases point <;> first | exact ⟨rfl, rfl⟩ | cases decided

end Threads

namespace Server

structure Created (id : String) (s : Server G) : Prop where
  undeleted : ∀ t r, s.threads t = some r → r.task ≠ .delete id
  blank : ∀ t r mg, s.threads t = some r →
    r.task.records r.point = some mg → mg.info.status = "created"
  unseen : s.manager.sims id = none → ∀ t r, s.threads t = some r →
    r.task.id = id → r.task.isCreate = true ∨ r.point.hasLooked = false
  inserted : ∀ t r, s.threads t = some r → r.task.id = id →
    r.task.vacant r.point = true → s.manager.sims id = none ∧
      ∃ row, s.manager.rows id = some row ∧ row.status = "created"
  lone : ∀ t u r q, s.threads t = some r → s.threads u = some q →
    r.task.id = id → q.task.id = id → r.task.vacant r.point = true →
    q.task.vacant q.point = true → t = u
  stored : ∀ mg, s.manager.sims id = some mg → ∃ row, s.manager.rows id = some row

theorem created_new (id : String) (rows : String → Option SimulationInfo) :
    (Server.new (Manager.new rows) : Server G).Created id where
  undeleted := fun _ _ held => by cases held
  blank := fun _ _ _ held => by cases held
  unseen := fun _ _ _ held => by cases held
  inserted := fun _ _ held => by cases held
  lone := fun _ _ _ _ held => by cases held
  stored := fun _ mapped => by cases mapped

variable {task : Task} {s : Server G}

theorem not_vacant_entered : task.vacant .entered ≠ true := by
  intro vacant
  cases task <;> cases vacant

theorem Created.call {id : String} (created : s.Created id)
    {t : Nat} {claims : Option Claims} (kept : task ≠ .delete id) :
    Created id { s with
      threads := Function.update s.threads t (some ⟨claims, task, .entered⟩) } where
  undeleted := by
    intro u q held
    rcases thread_cases held with ⟨_, eq⟩ | ⟨_, old⟩
    · cases eq
      exact kept
    · exact created.undeleted u q old
  blank := by
    intro u q mg held spot
    rcases thread_cases held with ⟨_, eq⟩ | ⟨_, old⟩
    · cases eq
      exact absurd spot records_entered
    · exact created.blank u q mg old spot
  unseen := by
    intro missing u q held sameID
    rcases thread_cases held with ⟨_, eq⟩ | ⟨_, old⟩
    · cases eq
      exact .inr rfl
    · exact created.unseen missing u q old sameID
  inserted := by
    intro u q held sameID vacant
    rcases thread_cases held with ⟨_, eq⟩ | ⟨_, old⟩
    · cases eq
      exact absurd vacant not_vacant_entered
    · exact created.inserted u q old sameID vacant
  lone := by
    intro u v q p held held' sameQ sameP first second
    rcases thread_cases held with ⟨_, eq⟩ | ⟨_, old⟩
    · cases eq
      exact absurd first not_vacant_entered
    · rcases thread_cases held' with ⟨_, eq⟩ | ⟨_, old'⟩
      · cases eq
        exact absurd second not_vacant_entered
      · exact created.lone u v q p old old' sameQ sameP first
          second
  stored := created.stored

theorem Created.background {id : String} (created : s.Created id) (addr : Nat) (next : LiveSim G) :
    Created id { s with manager := s.manager.setSim addr next } :=
  ⟨created.undeleted, created.blank, created.unseen, created.inserted, created.lone, created.stored⟩

section Advance

variable {id : String} {s next : Server G} {host : Host G M} {t : Nat} {r : Request}
  {input : Input G} {outcome : Outcome G}

theorem Created.recordAt (created : s.Created id) (sound : s.Sound) (here : s.threads t = some r)
    (moves : Progress host t s.manager r.claims input r.task r.point outcome) :
    RecordAt id s.manager input.fault r.task r.point outcome :=
  moves.recordAt (fun mg => sound.held t r mg here)
    (fun mg => sound.records t r mg here) (created.undeleted t r here)

theorem Created.mapped (created : s.Created id) (here : s.threads t = some r) (own : r.task.id = id)
    (looked : r.point.hasLooked = true) (other : r.task.isCreate = false) :
    ∃ mg, s.manager.sims id = some mg := by
  cases mapped : s.manager.sims id with
  | some mg => exact ⟨mg, rfl⟩
  | none =>
    rcases created.unseen mapped t r here own with create | notLooked
    · rw [other] at create
      cases create
    · rw [looked] at notLooked
      cases notLooked

theorem Created.mapped_of_replay (created : s.Created id)
    (here : s.threads t = some r) {rand : Option (Fin 8 → UInt8)}
    {mg : Managed} (isReplay : r.task = .replay id rand)
    (built : r.point = .built mg) : ∃ mg, s.manager.sims id = some mg := by
  apply created.mapped here
  · rw [isReplay]
    rfl
  · rw [built]
    rfl
  · rw [isReplay]
    rfl

section

variable (created : s.Created id) (sound : s.Sound) (here : s.threads t = some r)
include created sound here

theorem Created.inserted_others (moves : Progress host t s.manager r.claims input r.task r.point
      outcome) {u : Nat} {q : Request} (ne : u ≠ t)
    (held : s.threads u = some q) (sameID : q.task.id = id)
    (vacant : q.task.vacant q.point = true) :
    outcome.manager.sims id = none ∧ ∃ row, outcome.manager.rows id = some row ∧
        row.status = "created" := by
  obtain ⟨missing, row, stored, status⟩ := created.inserted u q held sameID vacant
  cases created.recordAt sound here moves with
  | same sims rows =>
    rw [sims, rows]
    exact ⟨missing, row, stored, status⟩
  | write own decided wrote =>
    obtain ⟨looked, other⟩ := looked_of_decided decided
    obtain ⟨mg, mapped⟩ := created.mapped here own looked other
    rw [missing] at mapped
    cases mapped
  | insert noRow sims rows =>
    rw [stored] at noRow
    cases noRow
  | put own vacantToo carried sims rows heap =>
    exact absurd (created.lone u t q r held here sameID own vacant vacantToo) ne
  | place isReplay built goes sims rows =>
    obtain ⟨mg, mapped⟩ := created.mapped_of_replay here isReplay built
    rw [missing] at mapped
    cases mapped

theorem Created.inserted_own (moves : Progress host t s.manager r.claims input r.task r.point
      outcome) {point : Point} (goes : outcome.point = some point)
    (own : r.task.id = id) (vacant : r.task.vacant point = true) :
    s.manager.rows id = none ∧ outcome.manager.sims id = none ∧
      ∃ row, outcome.manager.rows id = some row ∧ row.status = "created" := by
  have undeleted : r.task ≠ .delete r.task.id := by
    rw [own]
    exact created.undeleted t r here
  obtain ⟨mg, row, spot, missing, sameID, status, eq⟩ := moves.inserts undeleted goes vacant
  have forID : mg.info.id = id := by
    rw [sound.records t r mg here spot, own]
  rw [forID] at missing sameID
  rw [eq, sameID]
  refine ⟨missing, ?_, row, Function.update_self _ _ _, ?_⟩
  · cases mapped : s.manager.sims id with
    | none => exact mapped
    | some other =>
      obtain ⟨old, stored⟩ := created.stored other mapped
      rw [missing] at stored
      cases stored
  · rw [status]
    exact created.blank t r mg here spot

theorem Created.advance (progress : Progress host t s.manager r.claims input r.task r.point
      outcome) (after : After s t r outcome next) : next.Created id where
  undeleted := by
    intro u q held
    rcases after.cases u q held with ⟨_, point, goes, rfl⟩ | ⟨_, before⟩ | rfl
    · exact created.undeleted t r here
    · exact created.undeleted u q before
    · exact nofun
  blank := by
    intro u q mg held recorded
    rcases after.cases u q held with ⟨_, point, goes, rfl⟩ | ⟨_, before⟩ | rfl
    · exact progress.blank (fun mg => created.blank t r mg here) goes recorded
    · exact created.blank u q mg before recorded
    · cases recorded
  unseen := by
    rw [after.manager]
    intro missing
    have missingBefore : s.manager.sims id = none := by
      cases created.recordAt sound here progress with
      | same sims rows | insert noRow sims rows =>
        rw [← sims]
        exact missing
      | write own decided written =>
        rw [written, (Manager.updateStatus_frame _ _ _ _).1] at missing
        exact missing
      | put own vacant carried sims rows heap | place isReplay built goes sims rows =>
        rw [sims] at missing
        cases missing
    intro u q held sameID
    rcases after.cases u q held with ⟨_, point, goes, rfl⟩ | ⟨_, before⟩ | rfl
    · rcases created.unseen missingBefore t r here sameID with create | not
      · exact .inl create
      · cases looked : point.hasLooked with
        | false => exact .inr rfl
        | true =>
          rcases progress.looked goes looked with create | before | ⟨mg, mapped⟩
          · exact .inl create
          · rw [not] at before
            cases before
          · rw [sameID, missingBefore] at mapped
            cases mapped
    · exact created.unseen missingBefore u q before sameID
    · exact .inr rfl
  inserted := by
    rw [after.manager]
    intro u q held sameID vacant
    rcases after.cases u q held with ⟨_, point, goes, rfl⟩ | ⟨different, before⟩ | rfl
    · exact (created.inserted_own sound here progress goes sameID vacant).2
    · exact created.inserted_others sound here progress different before sameID vacant
    · cases vacant
  lone := by
    have alone : ∀ {point : Point} {v : Nat} {p : Request},
        outcome.point = some point → r.task.id = id →
        r.task.vacant point = true → s.threads v = some p →
        p.task.id = id → p.task.vacant p.point = true → False := by
      intro point v p goes own vacant before sameID vacantToo
      obtain ⟨noRow, _⟩ := created.inserted_own sound here progress goes own vacant
      obtain ⟨_, row, stored, _⟩ := created.inserted v p before sameID vacantToo
      rw [noRow] at stored
      cases stored
    intro u v q p held heldAgain sameQ sameP first second
    rcases after.cases u q held with ⟨rfl, point, goes, rfl⟩ | ⟨_, before⟩ | rfl
    · rcases after.cases v p heldAgain with ⟨rfl, _⟩ | ⟨_, beforeAgain⟩ | rfl
      · rfl
      · exact (alone goes sameQ first beforeAgain sameP second).elim
      · cases second
    · rcases after.cases v p heldAgain with ⟨rfl, point, goes, rfl⟩ | ⟨_, beforeAgain⟩ | rfl
      · exact (alone goes sameP second before sameQ first).elim
      · exact created.lone u v q p before beforeAgain sameQ sameP first second
      · cases second
    · cases first
  stored := by
    rw [after.manager]
    intro mg mapped
    cases created.recordAt sound here progress with
    | same sims rows =>
      rw [sims] at mapped
      rw [rows]
      exact created.stored mg mapped
    | write own decided written =>
      obtain ⟨sims, _, rows⟩ := s.manager.updateStatus_frame input.fault id _
      rw [written, sims] at mapped
      obtain ⟨row, stored⟩ := created.stored mg mapped
      rw [written, ← Option.isSome_iff_exists, rows, stored]
      rfl
    | insert noRow sims rows => exact rows
    | put own vacant carried sims rows heap =>
      obtain ⟨_, row, stored, _⟩ := created.inserted t r here own vacant
      rw [rows]
      exact ⟨row, stored⟩
    | place isReplay built goes sims rows =>
      obtain ⟨old, before⟩ := created.mapped_of_replay here isReplay built
      rw [rows]
      exact created.stored old before

end

end Advance

end Server

end Runner

end Simulator
