import Mathlib

/-!
# Interleaved processes with disjoint footprints

If no thread writes what another one reads or writes, every complete interleaving ends
as running the threads one after another does.
-/

namespace Interleaving

open List Function

universe u v w

inductive Process (σ : Type u) (ρ : Type w) : Type (max u w)
  | halt (result : ρ)
  | act (effect : σ → σ) (rest : σ → Process σ ρ)

namespace Process

variable {σ : Type u} {ρ : Type w}

def exec : Process σ ρ → σ → σ
  | .halt _, state => state
  | .act effect rest, state => (rest state).exec (effect state)

def andThen : Process σ Unit → Process σ ρ → Process σ ρ
  | .halt _, second => second
  | .act effect rest, second =>
    .act effect fun state => (rest state).andThen second

def forEach {ι : Type v} (body : ι → Process σ Unit) :
    List ι → Process σ Unit
  | [] => .halt ()
  | index :: indices => (body index).andThen (forEach body indices)

def Returns (result : ρ) : Process σ ρ → Prop
  | .halt actual => actual = result
  | .act _ rest => ∀ state, (rest state).Returns result

def Along (acts : (σ → σ) → Prop) (ends : ρ → Prop) : Process σ ρ → Prop
  | .halt result => ends result
  | .act effect rest =>
    acts effect ∧ ∀ state, (rest state).Along acts ends

variable {result : ρ} {ι : Type v}

theorem along_of_returns {process : Process σ ρ} (returns : process.Returns result) :
    process.Along (fun _ => True) (· = result) := by
  induction process with
  | halt actual => exact returns
  | act effect rest ih =>
    exact ⟨trivial, fun state => ih state (returns state)⟩

@[simp]
theorem exec_halt (result : ρ) (state : σ) : exec (.halt result) state = state :=
  rfl

@[simp]
theorem exec_act (effect : σ → σ) (rest : σ → Process σ ρ) (state : σ) :
    exec (.act effect rest) state = exec (rest state) (effect state) :=
  rfl

@[simp]
theorem exec_andThen (first : Process σ Unit) (second : Process σ ρ) (state : σ) :
    (first.andThen second).exec state = second.exec (first.exec state) := by
  induction first generalizing state with
  | halt => rfl
  | act effect rest ih => exact ih state (effect state)

theorem andThen_assoc (first second : Process σ Unit) (third : Process σ ρ) :
    (first.andThen second).andThen third = first.andThen (second.andThen third) := by
  induction first with
  | halt => rfl
  | act effect rest ih =>
    simp only [andThen, Process.act.injEq, true_and]
    funext state
    exact ih state

theorem returns_andThen (first : Process σ Unit)
    {second : Process σ ρ} (returns : second.Returns result) :
    (first.andThen second).Returns result := by
  induction first with
  | halt => exact returns
  | act effect rest ih => exact ih

theorem forEach_append (body : ι → Process σ Unit) (first second : List ι) :
    forEach body (first ++ second) = (forEach body first).andThen (forEach body second) := by
  induction first with
  | nil => rfl
  | cons i first ih =>
    rw [cons_append, forEach, forEach, ih, andThen_assoc]

theorem exec_forEach_flatten (body : ι → Process σ Unit)
    (shards : List (List ι)) (state : σ) : (forEach body shards.flatten).exec state =
      shards.foldl (fun cur shard => (forEach body shard).exec cur)
        state := by
  induction shards generalizing state with
  | nil => rfl
  | cons shard shards ih =>
    rw [flatten_cons, forEach_append, exec_andThen, ih, foldl_cons]

end Process

structure Store (σ : Type u) (Location Value : Type v) where
  view : σ → Location → Value
  Alike : σ → σ → Prop
  equivalence : Equivalence Alike
  ext : ∀ {first second}, Alike first second →
    (∀ location, view first location = view second location) → first = second

structure Footprint (Location : Type v) where
  reads : Set Location
  writes : Set Location

namespace Footprint

variable {Location : Type v}

def touched (footprint : Footprint Location) : Set Location :=
  footprint.reads ∪ footprint.writes

def Spares (first second : Footprint Location) : Prop :=
  Disjoint first.writes second.touched

end Footprint

section Footprints

variable {σ : Type u} {ρ : Type w} {Location Value : Type v} (store : Store σ Location Value)

def AgreeOn (locations : Set Location) (first second : σ) : Prop :=
  ∀ location ∈ locations, store.view first location = store.view second location

/-- In every state like `base`, each action of the process writes only within
the footprint, and what it writes and how it continues depends only on the
values of the footprint. -/
def Within (base : σ) (footprint : Footprint Location) :
    Process σ ρ → Prop
  | .halt _ => True
  | .act effect rest =>
    (∀ state, store.Alike base state → store.Alike state (effect state) ∧
        ∀ location, location ∉ footprint.writes → store.view (effect state) location =
            store.view state location) ∧
    (∀ first second, store.Alike base first → store.Alike base second →
      AgreeOn store footprint.touched first second → rest first = rest second ∧
          AgreeOn store footprint.writes (effect first) (effect second)) ∧
    ∀ state, store.Alike base state → Within base footprint (rest state)

variable {store} {base : σ} {footprint : Footprint Location}

theorem Within.andThen {first : Process σ Unit} {second : Process σ ρ}
    (firstWithin : Within store base footprint first)
    (secondWithin : Within store base footprint second) :
    Within store base footprint (first.andThen second) := by
  induction first with
  | halt => exact secondWithin
  | act effect rest ih =>
    obtain ⟨frame, depends, later⟩ := firstWithin
    refine ⟨frame, ?_, fun state alike => ih state (later state alike)⟩
    intro left right leftAlike rightAlike agree
    have eq := depends left right leftAlike rightAlike agree
    exact ⟨congrArg (fun process => process.andThen second) eq.1, eq.2⟩

variable {process : Process σ ρ} {state : σ}

theorem Within.mono {larger : Footprint Location}
    (within : Within store base footprint process) (reads : footprint.reads ⊆ larger.touched)
    (writes : footprint.writes ⊆ larger.writes) : Within store base larger process := by
  induction process with
  | halt => trivial
  | act effect rest ih =>
    obtain ⟨frame, depends, later⟩ := within
    have touched : footprint.touched ⊆ larger.touched := by
      rintro loc (read | wrote)
      · exact reads read
      · exact Or.inr (writes wrote)
    refine ⟨?_, ?_, fun state alike => ih state (later state alike)⟩
    · intro state alike
      refine ⟨(frame state alike).1, fun loc ge => ?_⟩
      exact (frame state alike).2 loc fun lt =>
        ge (writes lt)
    · intro first second firstAlike secondAlike agree
      have eq := depends first second firstAlike secondAlike fun loc mem => agree loc (touched mem)
      refine ⟨eq.1, fun loc mem => ?_⟩
      by_cases lt : loc ∈ footprint.writes
      · exact eq.2 loc lt
      · rw [(frame first firstAlike).2 loc lt, (frame second secondAlike).2 loc lt]
        exact agree loc (Or.inr mem)

theorem Within.exec_alike
    (within : Within store base footprint process) (alike : store.Alike base state) :
    store.Alike base (process.exec state) := by
  induction process generalizing state with
  | halt => exact alike
  | act effect rest ih =>
    obtain ⟨frame, _, later⟩ := within
    exact ih state (later state alike) (store.equivalence.trans alike (frame state alike).1)

theorem Within.exec_frame (within : Within store base footprint process)
    (alike : store.Alike base state) {loc : Location} (ge : loc ∉ footprint.writes) :
    store.view (process.exec state) loc =
      store.view state loc := by
  induction process generalizing state with
  | halt => rfl
  | act effect rest ih =>
    obtain ⟨frame, _, later⟩ := within
    rw [Process.exec_act, ih state (later state alike)
      (store.equivalence.trans alike (frame state alike).1)]
    exact (frame state alike).2 loc ge

theorem Within.exec_agree (within : Within store base footprint process) {first second : σ}
    (firstAlike : store.Alike base first) (secondAlike : store.Alike base second)
    (agree : AgreeOn store footprint.touched first second) :
    AgreeOn store footprint.writes (process.exec first) (process.exec second) := by
  induction process generalizing first second with
  | halt =>
    intro loc wrote
    exact agree loc (Or.inr wrote)
  | act effect rest ih =>
    obtain ⟨frame, depends, later⟩ := within
    have eq := depends first second firstAlike secondAlike agree
    rw [Process.exec_act, Process.exec_act, ← eq.1]
    apply ih first (later first firstAlike)
      (store.equivalence.trans firstAlike (frame first firstAlike).1)
      (store.equivalence.trans secondAlike (frame second secondAlike).1)
    intro loc mem
    by_cases wrote : loc ∈ footprint.writes
    · exact eq.2 loc wrote
    · rw [(frame first firstAlike).2 loc wrote, (frame second secondAlike).2 loc wrote]
      exact agree loc mem

theorem Within.exec_comm {ρ' : Type w} {other : Footprint Location}
    {first : Process σ ρ} {second : Process σ ρ'} (firstWithin : Within store base footprint first)
    (secondWithin : Within store base other second)
    (spares : footprint.Spares other) (spared : other.Spares footprint)
    (alike : store.Alike base state) :
    second.exec (first.exec state) = first.exec (second.exec state) := by
  have firstAlike := firstWithin.exec_alike alike
  have secondAlike := secondWithin.exec_alike alike
  apply store.ext (store.equivalence.trans
      (store.equivalence.symm (secondWithin.exec_alike firstAlike))
      (firstWithin.exec_alike secondAlike))
  intro loc
  by_cases wrote : loc ∈ footprint.writes
  · have ge : loc ∉ other.writes := fun lt =>
      Set.disjoint_left.mp spares wrote (Or.inr lt)
    rw [secondWithin.exec_frame firstAlike ge]
    refine firstWithin.exec_agree alike secondAlike ?_ loc wrote
    intro read mem
    refine (secondWithin.exec_frame alike ?_).symm
    exact fun lt => Set.disjoint_left.mp spared lt mem
  · rw [firstWithin.exec_frame secondAlike wrote]
    by_cases lt : loc ∈ other.writes
    · refine secondWithin.exec_agree firstAlike alike ?_ loc lt
      intro read mem
      refine firstWithin.exec_frame alike ?_
      exact fun touched => Set.disjoint_left.mp spares touched mem
    · rw [secondWithin.exec_frame firstAlike lt, firstWithin.exec_frame alike wrote,
        secondWithin.exec_frame alike lt]

theorem Within.of_alike {base' : σ}
    (within : Within store base footprint process) (alike : store.Alike base base') :
    Within store base' footprint process := by
  induction process with
  | halt => trivial
  | act effect rest ih =>
    obtain ⟨frame, depends, later⟩ := within
    refine ⟨fun state eq => frame state ?_, ?_, fun state eq => ?_⟩
    · exact store.equivalence.trans alike eq
    · intro first second firstAlike secondAlike agree
      exact depends first second (store.equivalence.trans alike firstAlike)
        (store.equivalence.trans alike secondAlike) agree
    · exact ih state (later state (store.equivalence.trans alike eq))

theorem Within.forEach {ι : Type v} {body : ι → Process σ Unit}
    {indices : List ι} (within : ∀ i ∈ indices, Within store base footprint (body i)) :
    Within store base footprint (Process.forEach body indices) := by
  induction indices with
  | nil => trivial
  | cons i indices ih =>
    exact (within i (by simp)).andThen (ih fun other mem => within other (by simp [mem]))

end Footprints

structure Pool (σ : Type u) (ρ : Type w) (ι : Type v) where
  shared : σ
  threads : ι → Process σ ρ

namespace Pool

variable {σ : Type u} {ρ : Type w} {ι : Type v} [DecidableEq ι]

inductive Step : Pool σ ρ ι → Pool σ ρ ι → Prop
  | act (pool : Pool σ ρ ι) (thread : ι) (effect : σ → σ)
      (rest : σ → Process σ ρ) (current : pool.threads thread = .act effect rest) : Step pool
        ⟨effect pool.shared, Function.update pool.threads thread (rest pool.shared)⟩

def Reaches : Pool σ ρ ι → Pool σ ρ ι → Prop :=
  Relation.ReflTransGen Step

def Halted (pool : Pool σ ρ ι) : Prop :=
  ∀ thread, ∃ result, pool.threads thread = .halt result

theorem reaches_exec (shared : σ) (threads : ι → Process σ ρ) (thread : ι) :
    ∃ result, Reaches ⟨shared, threads⟩ ⟨(threads thread).exec shared,
        update threads thread (.halt result)⟩ := by
  generalize processEq : threads thread = process
  induction process generalizing shared threads with
  | halt result =>
    refine ⟨result, ?_⟩
    rw [Process.exec_halt, ← processEq, update_eq_self]
    exact Relation.ReflTransGen.refl
  | act effect rest ih =>
    have first : Step ⟨shared, threads⟩ ⟨effect shared, update threads thread (rest shared)⟩ :=
      Step.act ⟨shared, threads⟩ thread effect rest processEq
    obtain ⟨result, later⟩ := ih shared (effect shared) (update threads thread (rest shared))
      (update_self thread (rest shared) threads)
    rw [update_idem] at later
    exact ⟨result, Relation.ReflTransGen.head first later⟩

theorem reaches_foldl (order : List ι) (nodup : order.Nodup) (shared : σ)
    (threads : ι → Process σ ρ) :
    ∃ final, Reaches ⟨shared, threads⟩
        ⟨order.foldl (fun cur thread => (threads thread).exec cur) shared, final⟩ ∧
      (∀ thread ∈ order, ∃ result, final thread = .halt result) ∧
      ∀ thread, thread ∉ order → final thread = threads thread := by
  induction order generalizing shared threads with
  | nil =>
    exact ⟨threads, Relation.ReflTransGen.refl, by simp, by simp⟩
  | cons thread order ih =>
    obtain ⟨fresh, rest⟩ := nodup_cons.mp nodup
    obtain ⟨result, first⟩ := reaches_exec shared threads thread
    obtain ⟨final, later, halted, kept⟩ := ih rest ((threads thread).exec shared)
      (update threads thread (.halt result))
    have sameFold (state : σ) : order.foldl (fun cur other =>
            (update threads thread (.halt result) other).exec cur) state =
        order.foldl (fun cur other => (threads other).exec cur)
          state := by
      apply foldl_ext
      intro cur other mem
      have ne : other ≠ thread := by
        rintro rfl
        exact fresh mem
      rw [update_of_ne ne]
    rw [sameFold] at later
    refine ⟨final, first.trans later, ?_, ?_⟩
    · intro other mem
      rcases mem_cons.mp mem with rfl | mem
      · exact ⟨result, by rw [kept _ fresh, update_self]⟩
      · exact halted other mem
    · intro other ge
      rw [mem_cons, not_or] at ge
      rw [kept other ge.2, update_of_ne ge.1]

section Determinism

variable {Location Value : Type v} (store : Store σ Location Value)

structure Undisturbed (footprints : ι → Footprint Location)
    (start pool : Pool σ ρ ι) : Prop where
  alike : store.Alike start.shared pool.shared
  within : ∀ thread, Within store start.shared (footprints thread) (pool.threads thread)
  result : ∀ thread, AgreeOn store (footprints thread).writes
    ((pool.threads thread).exec pool.shared) ((start.threads thread).exec start.shared)
  outside : ∀ location, (∀ thread, location ∉ (footprints thread).writes) →
    store.view pool.shared location = store.view start.shared location

variable {store} {footprints : ι → Footprint Location} {start pool : Pool σ ρ ι}

theorem Undisturbed.step {next : Pool σ ρ ι} (spares : ∀ first second, first ≠ second →
      (footprints first).Spares (footprints second))
    (undisturbed : Undisturbed store footprints start pool) (step : Step pool next) :
    Undisturbed store footprints start next := by
  cases step with
  | act thread effect rest cur =>
    have stepped := undisturbed.within thread
    rw [cur] at stepped
    obtain ⟨frame, _, later⟩ := stepped
    have framed := frame pool.shared undisturbed.alike
    have nextAlike := store.equivalence.trans undisturbed.alike framed.1
    refine ⟨nextAlike, ?_, ?_, ?_⟩
    · intro other
      by_cases eq : other = thread
      · subst other
        simpa using later pool.shared undisturbed.alike
      · simpa [update_of_ne eq] using undisturbed.within other
    · intro other
      by_cases eq : other = thread
      · subst other
        have old := undisturbed.result thread
        rw [cur, Process.exec_act] at old
        simpa using old
      · -- the action is invisible to every other thread
        have unseen : AgreeOn store (footprints other).touched
            (effect pool.shared) pool.shared := by
          intro loc mem
          apply framed.2
          intro wrote
          exact Set.disjoint_left.mp (spares thread other (Ne.symm eq)) wrote mem
        have moved := (undisturbed.within other).exec_agree nextAlike undisturbed.alike unseen
        intro loc wrote
        simp only [update_of_ne eq]
        exact (moved loc wrote).trans (undisturbed.result other loc wrote)
    · intro loc untouched
      exact (framed.2 loc (untouched thread)).trans (undisturbed.outside loc untouched)

theorem Undisturbed.reaches (spares : ∀ first second, first ≠ second →
      (footprints first).Spares (footprints second))
    (within : ∀ thread, Within store start.shared (footprints thread) (start.threads thread))
    (reaches : Reaches start pool) : Undisturbed store footprints start pool := by
  induction reaches with
  | refl =>
    exact ⟨store.equivalence.refl _, within, fun _ _ _ => rfl, fun _ _ => rfl⟩
  | tail _ step ih => exact ih.step spares step

theorem shared_eq_of_halted {other : Pool σ ρ ι} (spares : ∀ first second, first ≠ second →
      (footprints first).Spares (footprints second))
    (within : ∀ thread, Within store start.shared (footprints thread) (start.threads thread))
    (reaches : Reaches start pool) (halted : pool.Halted)
    (otherReaches : Reaches start other) (otherHalted : other.Halted) :
    pool.shared = other.shared := by
  have first := Undisturbed.reaches spares within reaches
  have second := Undisturbed.reaches spares within otherReaches
  apply store.ext (store.equivalence.trans (store.equivalence.symm first.alike) second.alike)
  intro loc
  by_cases wrote : ∃ thread, loc ∈ (footprints thread).writes
  · obtain ⟨thread, mem⟩ := wrote
    have firstResult := first.result thread loc mem
    have secondResult := second.result thread loc mem
    obtain ⟨_, ended⟩ := halted thread
    obtain ⟨_, otherEnded⟩ := otherHalted thread
    rw [ended, Process.exec_halt] at firstResult
    rw [otherEnded, Process.exec_halt] at secondResult
    exact firstResult.trans secondResult.symm
  · have untouched : ∀ thread, loc ∉ (footprints thread).writes :=
      fun thread mem => wrote ⟨thread, mem⟩
    exact (first.outside loc untouched).trans (second.outside loc untouched).symm

theorem shared_eq_foldl (order : List ι) (nodup : order.Nodup)
    (complete : ∀ thread, thread ∉ order → ∃ result, start.threads thread = .halt result)
    (spares : ∀ first second, first ≠ second → (footprints first).Spares (footprints second))
    (within : ∀ thread, Within store start.shared (footprints thread) (start.threads thread))
    (reaches : Reaches start pool) (halted : pool.Halted) :
    pool.shared = order.foldl (fun cur thread =>
        (start.threads thread).exec cur) start.shared := by
  obtain ⟨final, otherReaches, done, kept⟩ := reaches_foldl order nodup start.shared start.threads
  refine shared_eq_of_halted spares within reaches halted otherReaches ?_
  intro thread
  by_cases mem : thread ∈ order
  · exact done thread mem
  · obtain ⟨result, ended⟩ := complete thread mem
    exact ⟨result, (kept thread mem).trans ended⟩

end Determinism

end Pool

end Interleaving
