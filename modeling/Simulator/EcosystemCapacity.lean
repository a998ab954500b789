import Simulator.EntityLifecycle
import Simulator.ShippedModels

/-!
# The carrying capacity of the ecosystem

The population is compared with `MaxAnimals` once in a tick, before all its births.
-/

namespace Simulator

open Requests List Option World Code Program EntityManager Finset ModelProgram

namespace World

variable {G : GoTypes} {α β : Type} {w after : World G} {sortSlice : SortSlice (Event G)}

/-- The entity indices have not run out. -/
def Fits (w : World G) : Prop :=
  w.entities.versions.length < 2 ^ 32

theorem versions_destroy (m : EntityManager) (e : EntityID) :
    (m.destroy e).2.versions = m.versions := by
  fun_cases destroy m e <;> rfl

theorem length_versions_run {op : Operation G} {reply : Reply G}
    (ran : w.run sortSlice op = some (reply, after)) :
    w.entities.versions.length ≤ after.entities.versions.length := by
  cases op with
  | create =>
    obtain ⟨_, _, made, _, rfl⟩ := create_of_run ran
    exact versions_length_le_of_create made
  | destroy e =>
    cases ran
    exact (congrArg length (versions_destroy w.entities e)).ge
  | columnOf =>
    obtain ⟨_, _, _, rfl⟩ := columnOf_of_run ran
    exact le_rfl
  | column =>
    obtain ⟨_, _, _, rfl⟩ := column_of_run ran
    exact le_rfl
  | alive | ids | len | registerComponent | componentName | entitiesOf | setResource | getResource
  | registerTag | tagName | addTag | removeTag | hasTag | removeEntityTags | push | pop | peek
  | peekAll | queueLen | tick | time | advance | advanceTime | registerPayloadType =>
    cases ran
    exact le_rfl

variable {code : Code G α} {post : α → World G → Prop}

theorem Fits.of_runCode {res : α} (fits : after.Fits)
    (ran : w.runCode sortSlice code = some (res, after)) : w.Fits := by
  induction code generalizing w with
  | ret v =>
    cases ran
    exact fits
  | fail msg => cases ran
  | ask op rest ih =>
    simp only [World.runCode, Program.run] at ran
    cases answered : w.run sortSlice op with
    | none => rw [answered] at ran; cases ran
    | some reply =>
      rw [answered] at ran
      exact (length_versions_run answered).trans_lt (ih reply.1 ran)

/-- A run that ends before the indices run out ends as described. -/
abbrev LeadsIn (sortSlice : SortSlice (Event G)) (code : Code G α) (post : α → World G → Prop)
    (w : World G) : Prop :=
  w.Leads sortSlice True code fun result after => after.Fits → post result after

theorem leadsIn_of_fits
    (leads : w.Fits → w.LeadsIn sortSlice code post) : w.LeadsIn sortSlice code post :=
  meets_of_run fun _ _ ran fits => (leads (fits.of_runCode ran)).of_run ran fits

theorem LeadsIn.bind {next : α → Code G β}
    {last : β → World G → Prop} (first : w.LeadsIn sortSlice code post)
    (rest : ∀ res mid, post res mid → mid.LeadsIn sortSlice (next res) last) :
    w.LeadsIn sortSlice (code >>= next) last :=
  Program.Meets.bind first fun res mid holds =>
    leadsIn_of_fits fun fits => rest res mid (holds fits)

end World

namespace Ecosystem

variable {codec : JsonCodec Energy} {metadata : Metadata} {m : Ecosystem} {tag : Tag}
  {sortSlice : SortSlice (Event (ecosystemTypes codec))} {w after : World (ecosystemTypes codec)}
  {e : EntityID} {α β : Type} {post : β → World (ecosystemTypes codec) → Prop}

/-- `energyCol` -/
def stock (m : Ecosystem) (w : World (ecosystemTypes codec)) : Column Energy :=
  World.column (G := ecosystemTypes codec) w (some .energy) m.energyID

def energyOf (m : Ecosystem) (w : World (ecosystemTypes codec)) (e : EntityID) : Int :=
  (((m.stock w).get e).getD ⟨0⟩).e

def herd (w : World (ecosystemTypes codec)) (tag : Tag) : Finset EntityID :=
  (population w tag).toFinset

theorem mem_herd : e ∈ herd w tag ↔ e ∈ w.entities.ids ∧ w.tagStore.has e tag = true := by
  rw [herd, List.mem_toFinset, population, mem_filter]

/-- Every tag is that of a live entity, and no entity is a plant and an animal. -/
structure Kept (metadata : Metadata) (m : Ecosystem) (w : World (ecosystemTypes codec)) :
    Prop where
  laid : w.Laid metadata (layout codec)
  wired : m.energyID = 0
  distinct : m.animalTag ≠ m.plantTag
  fits : w.Fits
  current : w.entities.Current
  listed : ∀ e tag, w.tagStore.has e tag = true → e ∈ w.entities.ids
  apart : ∀ e, w.tagStore.has e m.animalTag = true → w.tagStore.has e m.plantTag = false

/-- A new entity with a tag, before its energy is set. -/
structure Born (metadata : Metadata) (m : Ecosystem) (tag : Tag) (w : World (ecosystemTypes codec))
    (e : EntityID) (after : World (ecosystemTypes codec)) : Prop where
  kept : Kept metadata m after
  fresh : ∀ other ∈ w.entities.ids, other.key ≠ e.key
  herd : herd after tag = insert e (herd w tag)
  others : ∀ other, other ≠ tag → Ecosystem.herd after other = Ecosystem.herd w other
  stock : m.stock after = m.stock w

/-- The herds after the turns of some animals, in which new ones were born if
`canReproduce` -/
structure Bred (metadata : Metadata) (m : Ecosystem) (canReproduce : Bool)
    (w : World (ecosystemTypes codec)) (turns : List EntityID)
    (after : World (ecosystemTypes codec)) : Prop where
  kept : Kept metadata m after
  more : herd w m.animalTag ⊆ herd after m.animalTag
  count : (herd after m.animalTag).card = (herd w m.animalTag).card +
    if canReproduce then (turns.filter fun a => decide (10 ≤ m.energyOf w a)).length else 0
  plants : herd after m.plantTag = herd w m.plantTag
  others : ∀ other ∈ herd w m.animalTag, other ∉ turns → m.energyOf after other = m.energyOf w other

theorem herd_congr (es : after.entities = w.entities) (tags : after.tagStore = w.tagStore)
    (tag : Tag) : herd after tag = herd w tag := by
  rw [herd, herd, population_eq es tags]

namespace Kept

variable (kept : Kept metadata m w)
include kept

theorem consistent : w.entities.Consistent :=
  kept.laid.sound.entities kept.fits

theorem nodup_population (tag : Tag) : (population w tag).Nodup :=
  kept.consistent.dense_nodup.filter _

theorem card_herd (tag : Tag) : (herd w tag).card = (population w tag).length :=
  toFinset_card_of_nodup (kept.nodup_population tag)

theorem of_same (laid : after.Laid metadata (layout codec))
    (es : after.entities = w.entities) (tags : after.tagStore = w.tagStore) :
    Kept metadata m after where
  laid := laid
  wired := kept.wired
  distinct := kept.distinct
  fits := by
    unfold World.Fits
    rw [es]
    exact kept.fits
  current := es ▸ kept.current
  listed := by
    rw [es, tags]
    exact kept.listed
  apart := by
    rw [tags]
    exact kept.apart

variable {op : ColumnOp Energy}

theorem run_column {reply : Reply (ecosystemTypes codec)}
    (ran : w.run sortSlice (.column (some .energy) m.energyID op) = some (reply, after)) :
    Kept metadata m after ∧ after.entities = w.entities ∧ after.tagStore = w.tagStore ∧
      m.stock after = (op.run (m.stock w)).2.1 := by
  obtain ⟨_, again, laid, wrote⟩ := kept.laid.run_column sortSlice (inLayout kept.wired) op
  cases ran.symm.trans again
  obtain ⟨_, _, _, rfl⟩ := column_of_run ran
  exact ⟨kept.of_same laid rfl rfl, rfl, rfl, wrote.self⟩

theorem leads_column {decode : Reply (ecosystemTypes codec) → Option α}
    {next : α → Code (ecosystemTypes codec) β}
    (rest : ∀ v after, Kept metadata m after → after.entities = w.entities →
      after.tagStore = w.tagStore → m.stock after = (op.run (m.stock w)).2.1 →
      after.LeadsIn sortSlice (next v) post) :
    w.LeadsIn sortSlice (request (.column (some .energy) m.energyID op) decode >>= next)
      post := by
  refine meets_request_bind fun reply after v ran _ => ?_
  obtain ⟨stillKept, es, tags, stock⟩ := kept.run_column ran
  exact rest v after stillKept es tags stock

theorem born (creates : EntityManager.Creates w.entities e after.entities)
    (laid : after.Laid metadata (layout codec)) (fits : after.Fits)
    (tags : after.tagStore = w.tagStore.add e tag) (comps : after.components = w.components) :
    Born metadata m tag w e after := by
  have fresh : ∀ other ∈ w.entities.ids, other.key ≠ e.key :=
    fun other live => creates.key_ne kept.consistent live
  have grown : ∀ other, other ∈ after.entities.ids ↔ other ∈ w.entities.ids ∨ other = e := by
    simp [EntityManager.ids, creates.dense_eq]
  have has : ∀ other kind, after.tagStore.has other kind = true ↔
      other = e ∧ kind = tag ∨ w.tagStore.has other kind = true := by
    simp [tags, TagStore.has_add]
  have untagged : ∀ kind, w.tagStore.has e kind ≠ true :=
    fun kind tagged => fresh e (kept.listed e kind tagged) rfl
  have listed := kept.listed
  have apart := kept.apart
  have distinct := kept.distinct
  refine ⟨⟨laid, kept.wired, distinct, fits, creates.current kept.consistent kept.current, ?_, ?_⟩,
    fresh, ?_, ?_, column_congr (by rw [comps]) _⟩
  · grind
  · grind
  · ext other
    simp only [mem_herd, grown, has, mem_insert]
    grind
  · intro kind ne
    ext other
    simp only [mem_herd, grown, has]
    grind

theorem leads_born {next : EntityID → Code (ecosystemTypes codec) β}
    (rest : ∀ e after, Born metadata m tag w e after → after.LeadsIn sortSlice (next e) post) :
    w.LeadsIn sortSlice (do
      let e ← create
      addTag e tag
      next e) post := by
  refine meets_request_bind fun reply mid e ran dec => ?_
  obtain ⟨_, es, made, rfl, rfl⟩ := create_of_run ran
  cases dec
  have laid := kept.laid.run (show (Operation.create : Operation _).Within _ from trivial) ran
  refine leadsIn_of_fits fun fits => meets_bind_of_run rfl (rest e _ ?_)
  refine kept.born (kept.consistent.creates made) ?_ fits rfl rfl
  exact laid.run (show (Operation.addTag e tag : Operation _).Within _ from trivial)
    (show run sortSlice _ _ = _ from rfl)

theorem buried (live : e ∈ w.entities.ids) (laid : after.Laid metadata (layout codec))
    (es : after.entities = (w.entities.destroy e).2)
    (tags : after.tagStore = w.tagStore.removeEntity e) : Kept metadata m after ∧
      (∀ other, other ∈ after.entities.ids ↔ other ∈ w.entities.ids ∧ other ≠ e) ∧
      ∀ tag, herd after tag = (herd w tag).erase e := by
  have alive := (alive_iff_mem kept.consistent kept.current e).mpr live
  obtain ⟨pos, spot⟩ := exists_position_of_alive alive
  rw [destroy_of_alive alive spot] at es
  have fewer : ∀ other, other ∈ after.entities.ids ↔ other ∈ w.entities.ids ∧ other ≠ e := by
    intro other
    rw [es]
    exact mem_release_iff kept.consistent kept.current live spot
  have has : ∀ other kind, after.tagStore.has other kind = true ↔
      other ≠ e ∧ w.tagStore.has other kind = true := by
    intro other kind
    rw [tags, TagStore.has_removeEntity, Bool.and_eq_true, Bool.not_eq_true', decide_eq_false_iff_not]
  have listed := kept.listed
  have apart := kept.apart
  refine ⟨⟨laid, kept.wired, kept.distinct, ?_, ?_, ?_, ?_⟩, fewer, fun kind => ?_⟩
  · unfold World.Fits
    rw [es]
    exact kept.fits
  · rw [es]
    exact current_release kept.current live spot
  · grind
  · grind
  · ext other
    rw [mem_herd, fewer, has, mem_erase, mem_herd]
    tauto

/-- An entity without energy is taken out of the world. -/
theorem leads_bury (live : e ∈ w.entities.ids) :
    w.LeadsIn sortSlice (m.bury e) fun _ after => Kept metadata m after ∧
      (∀ other, other ∈ after.entities.ids ↔ other ∈ w.entities.ids ∧ other ≠ e) ∧
      ∀ tag, herd after tag = (herd w tag).erase e := by
  refine meets_request_bind fun reply first _ ran _ => ?_
  have firstLaid := kept.laid.run (show (Operation.destroy e : Operation _).Within _ from trivial) ran
  cases ran
  refine meets_request_bind fun reply second _ ran _ => ?_
  have laid := firstLaid.run
    (show (Operation.removeEntityTags e : Operation _).Within _ from trivial) ran
  cases ran
  obtain ⟨stillKept, fewer, herds⟩ := kept.buried live laid rfl rfl
  refine stillKept.leads_column fun _ after stillKept es tags _ _ => ?_
  refine ⟨stillKept, es ▸ fewer, fun tag => ?_⟩
  rw [herd_congr es tags, herds]

theorem leads_buryAll {dead : List EntityID} (live : ∀ e ∈ dead, e ∈ w.entities.ids)
    (once : dead.Nodup) :
    w.LeadsIn sortSlice (dead.foldlM (fun _ e => m.bury e) ()) fun _ after =>
      Kept metadata m after ∧ ∀ tag, herd after tag = herd w tag \ dead.toFinset := by
  induction dead generalizing w with
  | nil => exact fun _ => ⟨kept, fun tag => by simp⟩
  | cons e dead ih =>
    rw [foldlM_cons]
    obtain ⟨unlisted, once⟩ := nodup_cons.mp once
    refine (kept.leads_bury (live e mem_cons_self)).bind ?_
    rintro _ mid ⟨middleKept, fewer, herds⟩
    have stillLive : ∀ other ∈ dead, other ∈ mid.entities.ids := by
      intro other mem
      refine (fewer other).mpr ⟨live other (mem_cons_of_mem _ mem), ?_⟩
      rintro rfl
      exact unlisted mem
    refine (ih middleKept stillLive once).mono fun _ after ended fits => ?_
    obtain ⟨stillKept, left⟩ := ended fits
    refine ⟨stillKept, fun tag => ?_⟩
    ext other
    simp only [left, herds, toFinset_cons, mem_sdiff, mem_erase, mem_insert]
    tauto

theorem key_ne {other : EntityID} (live : e ∈ w.entities.ids) (otherLive : other ∈ w.entities.ids)
    (ne : other ≠ e) : other.key ≠ e.key :=
  fun eq => ne (inj_on_of_nodup_map kept.consistent.indexes.nodup otherLive live eq)

/-- One animal has its turn, dying, giving birth or neither. -/
theorem leads_reproduce (canReproduce : Bool) {a : EntityID} (live : a ∈ herd w m.animalTag)
    (dead : List EntityID) :
    w.LeadsIn sortSlice (m.reproduce canReproduce dead a) fun last after =>
      Bred metadata m canReproduce w [a] after ∧
        last = dead ++ [a].filter fun a => decide (m.energyOf w a ≤ 0) := by
  refine kept.laid.leads_get (inLayout kept.wired) ?_
  have read : (((column (G := ecosystemTypes codec) w (some .energy) m.energyID).get a).getD
    ⟨0⟩).e = m.energyOf w a := rfl
  simp only [read]
  split
  · rename_i starving
    have poor : ¬10 ≤ m.energyOf w a := by omega
    exact fun _ => ⟨⟨kept, subset_rfl, by simp [poor], rfl, fun _ _ _ => rfl⟩, by simp [starving]⟩
  rename_i fed
  split
  · rename_i births
    refine kept.leads_column fun _ first firstKept es tags wrote => ?_
    refine firstKept.leads_born fun child second born => ?_
    refine born.kept.leads_column fun _ last lastKept sameEntities sameTags set => ?_
    have old := herd_congr es tags
    have herds := herd_congr sameEntities sameTags
    have unborn : child ∉ herd w m.animalTag := by
      intro mem
      refine born.fresh child ?_ rfl
      rw [es]
      exact (mem_herd.mp mem).1
    refine fun _ => ⟨⟨lastKept, ?_, ?_, ?_, ?_⟩, by simp [fed]⟩
    · rw [herds, born.herd, old]
      exact Finset.subset_insert _ _
    · rw [herds, born.herd, old, card_insert_of_notMem unborn]
      simp [births.1, births.2]
    · rw [herds, born.others _ kept.distinct.symm, old]
    · intro other mem ne
      have otherLive := (mem_herd.mp mem).1
      have apart := kept.key_ne (mem_herd.mp live).1 otherLive (by simpa using ne)
      have unlike := born.fresh other (es ▸ otherLive)
      have stocked : m.stock last = ((m.stock w).set a ⟨m.energyOf w a - 5⟩).set child ⟨5⟩ := by
        rw [set, born.stock, wrote]
        rfl
      rw [energyOf, stocked, Column.get_set_of_ne unlike, Column.get_set_of_ne apart, energyOf]
  · rename_i barren
    refine fun _ => ⟨⟨kept, subset_rfl, ?_, rfl, fun _ _ _ => rfl⟩, by simp [fed]⟩
    cases canReproduce with
    | false => rfl
    | true => simp_all

/-- The births of a tick, with the energies before them -/
theorem leads_reproduceAll (canReproduce : Bool) {animals : List EntityID} (once : animals.Nodup)
    (live : ∀ a ∈ animals, a ∈ herd w m.animalTag) (dead : List EntityID) :
    w.LeadsIn sortSlice (animals.foldlM (m.reproduce canReproduce) dead) fun last after =>
      Bred metadata m canReproduce w animals after ∧
        last = dead ++ animals.filter fun a => decide (m.energyOf w a ≤ 0) := by
  induction animals generalizing w dead with
  | nil => exact fun _ => ⟨⟨kept, subset_rfl, by simp, rfl, fun _ _ _ => rfl⟩, by simp⟩
  | cons a animals ih =>
    rw [foldlM_cons]
    obtain ⟨unlisted, once⟩ := nodup_cons.mp once
    have liveTail := fun b mem => live b (mem_cons_of_mem a mem)
    refine (kept.leads_reproduce canReproduce (live a mem_cons_self) dead).bind ?_
    rintro _ mid ⟨first, rfl⟩
    have eq : ∀ b ∈ animals, m.energyOf mid b = m.energyOf w b := by
      intro b mem
      refine first.others b (liveTail b mem) fun isFirst => ?_
      exact unlisted (List.mem_singleton.mp isFirst ▸ mem)
    have filters : ∀ p : Int → Bool, animals.filter (fun b => p (m.energyOf mid b)) =
        animals.filter fun b => p (m.energyOf w b) :=
      fun p => filter_congr fun b mem => by rw [eq b mem]
    refine (ih first.kept once (fun b mem => first.more (liveTail b mem)) _).mono
      fun last after ended fits => ?_
    obtain ⟨rest, rfl⟩ := ended fits
    have restCount := rest.count
    rw [filters fun energy => decide (10 ≤ energy), first.count] at restCount
    refine ⟨⟨rest.kept, first.more.trans rest.more, ?_, rest.plants.trans first.plants, ?_⟩, ?_⟩
    · rw [restCount, show a :: animals = [a] ++ animals from rfl, filter_append, length_append]
      split <;> omega
    · intro other mem unlike
      rw [List.mem_cons, not_or] at unlike
      rw [rest.others other (first.more mem) unlike.2, first.others other mem (by simp [unlike.1])]
    · rw [filters fun energy => decide (energy ≤ 0), append_assoc, ← filter_append]
      rfl

theorem leads_witherAll (plants dead : List EntityID) :
    w.LeadsIn sortSlice (plants.foldlM m.wither dead) fun last after =>
      after = w ∧ ∃ gone, gone.Sublist plants ∧ last = dead ++ gone := by
  induction plants generalizing dead with
  | nil => exact fun _ => ⟨rfl, [], .slnil, (append_nil dead).symm⟩
  | cons p plants ih =>
    have first : w.Leads sortSlice True (m.wither dead p) fun last after =>
        after = w ∧ ∃ gone, gone.Sublist [p] ∧ last = dead ++ gone := by
      refine kept.laid.leads_get (inLayout kept.wired) ?_
      split
      · exact ⟨rfl, [], nil_sublist _, (append_nil dead).symm⟩
      · split
        · exact ⟨rfl, [p], .refl _, rfl⟩
        · exact ⟨rfl, [], nil_sublist _, (append_nil dead).symm⟩
    rw [foldlM_cons]
    refine first.bind ?_
    rintro _ _ ⟨rfl, gone, among, rfl⟩
    refine (ih (dead ++ gone)).mono fun last after ended fits => ?_
    obtain ⟨rfl, others, more, rfl⟩ := ended fits
    exact ⟨rfl, gone ++ others, among.append more, append_assoc ..⟩

end Kept

/-- The first half of `Step`: the plants grow and the animals graze. -/
def pasture (m : Ecosystem) : Code (ecosystemTypes codec) Nat := do
  let plants ← tagged m.plantTag
  plants.foldlM (fun _ p => m.grow p) ()
  let animals ← tagged m.animalTag
  animals.foldlM (m.graze plants) m.plantCursor

/-- The births and deaths of `Step` -/
def turnover (m : Ecosystem) (plants animals : List EntityID) : Code (ecosystemTypes codec) Unit := do
  let canReproduce := decide ((animals.length : Int) < m.cfg.maxAnimals)
  let dead ← animals.foldlM (m.reproduce canReproduce) []
  let dead ← plants.foldlM m.wither dead
  dead.foldlM (fun _ e => m.bury e) ()

/-- The animals that die in this tick, after grazing -/
def starving (m : Ecosystem) (w : World (ecosystemTypes codec)) : List EntityID :=
  (population w m.animalTag).filter fun a => decide (m.energyOf w a ≤ 0)

/-- The animals that give birth in this tick if any may, after grazing -/
def wellFed (m : Ecosystem) (w : World (ecosystemTypes codec)) : List EntityID :=
  (population w m.animalTag).filter fun a => decide (10 ≤ m.energyOf w a)

def births (m : Ecosystem) (w : World (ecosystemTypes codec)) : Nat :=
  if ((population w m.animalTag).length : Int) < m.cfg.maxAnimals then (m.wellFed w).length else 0

namespace Kept

section

variable (kept : Kept metadata m w)
include kept

theorem leads_meal {meal : Code (ecosystemTypes codec) α}
    (columns : meal.Ensures (fun op => ∃ change, op = .column (some .energy) m.energyID change)
      fun _ => True) :
    w.Leads sortSlice True meal fun _ after => Kept metadata m after ∧
      after.entities = w.entities ∧ after.tagStore = w.tagStore := by
  refine meets_of_run fun res after ran => ?_
  refine (columns.run (fun v => Kept metadata m v ∧ v.entities = w.entities ∧
    v.tagStore = w.tagStore) ?_ ⟨kept, rfl, rfl⟩ ran).1
  rintro _ old reply next ⟨change, rfl⟩ ⟨kept, es, tags⟩ ran
  obtain ⟨stillKept, sameEntities, sameTags, _⟩ := kept.run_column ran
  exact ⟨stillKept, sameEntities.trans es, sameTags.trans tags⟩

theorem leads_turnover :
    w.LeadsIn sortSlice (m.turnover (population w m.plantTag) (population w m.animalTag))
      fun _ after => Kept metadata m after ∧
        (population after m.animalTag).length + (m.starving w).length =
          (population w m.animalTag).length + m.births w := by
  refine (kept.leads_reproduceAll _ (kept.nodup_population _)
    (fun a mem => List.mem_toFinset.mpr mem) []).bind ?_
  rintro _ _ ⟨⟨middleKept, more, count, plants, _⟩, rfl⟩
  refine (middleKept.leads_witherAll _ _).bind ?_
  rintro _ mid ⟨rfl, gone, among, rfl⟩
  rw [nil_append]
  have dying : ∀ a ∈ m.starving w, a ∈ herd mid m.animalTag := by
    intro a mem
    exact more (List.mem_toFinset.mpr (mem_of_mem_filter mem))
  have gonePlants : ∀ p ∈ gone, p ∈ herd mid m.plantTag := by
    intro p mem
    rw [plants]
    exact List.mem_toFinset.mpr (among.subset mem)
  have notPlant : ∀ a ∈ herd mid m.animalTag, a ∉ gone := by
    intro a mem isGone
    have planted := (mem_herd.mp (gonePlants a isGone)).2
    rw [middleKept.apart a (mem_herd.mp mem).2] at planted
    cases planted
  have starveOnce : (m.starving w).Nodup := (kept.nodup_population _).filter _
  have once : (m.starving w ++ gone).Nodup := by
    refine nodup_append'.mpr ⟨starveOnce,
      (kept.nodup_population _).sublist among, fun a mem isGone => ?_⟩
    exact notPlant a (dying a mem) isGone
  have live : ∀ e ∈ m.starving w ++ gone, e ∈ mid.entities.ids := by
    intro e mem
    rcases mem_append.mp mem with starves | withers
    · exact (mem_herd.mp (dying e starves)).1
    · exact (mem_herd.mp (gonePlants e withers)).1
  refine (middleKept.leads_buryAll live once).mono fun _ after ended fits => ?_
  obtain ⟨afterKept, left⟩ := ended fits
  refine ⟨afterKept, ?_⟩
  have survivors : herd after m.animalTag = herd mid m.animalTag \ (m.starving w).toFinset := by
    rw [left]
    ext a
    simp only [toFinset_append, mem_sdiff, mem_union, List.mem_toFinset, not_or]
    exact ⟨fun ⟨mem, lives, _⟩ => ⟨mem, lives⟩, fun ⟨mem, lives⟩ => ⟨mem, lives, notPlant a mem⟩⟩
  have among : (m.starving w).toFinset ⊆ herd mid m.animalTag :=
    fun a mem => dying a (List.mem_toFinset.mp mem)
  have deaths := card_sdiff_add_card_eq_card among
  rw [toFinset_card_of_nodup starveOnce] at deaths
  rw [← afterKept.card_herd, survivors, deaths, count, kept.card_herd, births]
  simp only [decide_eq_true_eq]
  rfl

theorem tick {next : Ecosystem} {final : World (ecosystemTypes codec)}
    (fits : final.Fits) (ran : w.runCode sortSlice (tickStep step m) = some (next, final)) :
    Kept metadata next final ∧ next.cfg = m.cfg ∧ next.animalTag = m.animalTag ∧
    ∃ cursor grazed, w.runCode sortSlice m.pasture = some (cursor, grazed) ∧
      population grazed m.animalTag = population w m.animalTag ∧
      (population final m.animalTag).length + (m.starving grazed).length =
        (population w m.animalTag).length + m.births grazed := by
  obtain ⟨res, last, worked, went⟩ := runCode_bind_eq_some ran
  cases went
  obtain ⟨plants, _, planted, worked⟩ := runCode_bind_eq_some worked
  cases (runCode_tagged _).symm.trans planted
  obtain ⟨_, grown, growing, worked⟩ := runCode_bind_eq_some worked
  obtain ⟨animals, _, herded, worked⟩ := runCode_bind_eq_some worked
  cases (runCode_tagged _).symm.trans herded
  obtain ⟨cursor, grazed, grazing, worked⟩ := runCode_bind_eq_some worked
  have columns : ∀ change, ∃ again, Operation.column (G := ecosystemTypes codec) (some .energy)
      m.energyID change = .column (some .energy) m.energyID again := fun change => ⟨change, rfl⟩
  obtain ⟨grownKept, grownEntities, grownTags⟩ := (kept.leads_meal
    (.foldlM (fun _ p _ => ensures_grow columns p) _ trivial)).of_run growing
  obtain ⟨grazedKept, es, tags⟩ := (grownKept.leads_meal
    (.foldlM (fun cursor a _ => ensures_graze columns _ cursor a) _ trivial)).of_run grazing
  have sameAnimals := population_eq es tags m.animalTag
  have samePlants := population_eq (es.trans grownEntities) (tags.trans grownTags) m.plantTag
  rw [← sameAnimals, ← samePlants] at worked
  obtain ⟨dead, _, born, worked⟩ := runCode_bind_eq_some worked
  obtain ⟨dead, _, withered, worked⟩ := runCode_bind_eq_some worked
  obtain ⟨_, after, cleared, counted⟩ := runCode_bind_eq_some worked
  have turned : grazed.runCode sortSlice (m.turnover (population grazed m.plantTag)
      (population grazed m.animalTag)) = some ((), after) := by
    refine (runCode_bind _ _ grazed).trans ?_
    refine (congrArg (Option.bind · _) born).trans ?_
    refine (runCode_bind _ _ _).trans ?_
    exact (congrArg (Option.bind · _) withered).trans cleared
  have lastFits : last.Fits := fits
  have afterFits := lastFits.of_runCode counted
  obtain ⟨afterKept, balance⟩ := grazedKept.leads_turnover.of_run turned afterFits
  rw [census, runCode_bind, runCode_tagged, bind_some, runCode_bind,
    runCode_tagged, bind_some] at counted
  obtain ⟨entries, _, visited, ends⟩ := runCode_bind_eq_some counted
  cases ends
  cases (afterKept.laid.runCode_each (inLayout afterKept.wired)).symm.trans visited
  have ended := afterKept.of_same afterKept.laid.advanced rfl rfl
  have grazes : w.runCode sortSlice m.pasture = some (cursor, grazed) := by
    rw [pasture, runCode_bind, runCode_tagged, bind_some, runCode_bind, growing,
      bind_some, runCode_bind, runCode_tagged]
    exact grazing
  have unchanged := population_eq (es.trans grownEntities) (tags.trans grownTags) m.animalTag
  refine ⟨⟨ended.laid, ended.wired, ended.distinct, ended.fits, ended.current, ended.listed,
    ended.apart⟩, rfl, rfl, cursor, grazed, grazes, unchanged, ?_⟩
  rw [← unchanged]
  exact balance

/-- A loop of `Initialize` -/
theorem leads_seed (tag : Tag) (least : Int) (spread : UInt64) (count : Int) (stream : RNG) :
    w.LeadsIn sortSlice (m.seed tag least spread count stream) fun _ after =>
      Kept metadata m after ∧ (herd after tag).card = (herd w tag).card + count.toNat ∧
        ∀ other, other ≠ tag → herd after other = herd w other := by
  unfold seed
  induction count.toNat generalizing w stream with
  | zero => exact fun _ => ⟨kept, rfl, fun _ _ => rfl⟩
  | succ n ih =>
    refine World.LeadsIn.bind (?_ : World.LeadsIn sortSlice _ (fun _ after =>
      Kept metadata m after ∧ (herd after tag).card = (herd w tag).card + 1 ∧
        ∀ other, other ≠ tag → herd after other = herd w other) w) fun stream mid => ?_
    · refine kept.leads_born fun e mid born => ?_
      cases RNG.uint64n stream spread with
      | error msg => trivial
      | ok drawn =>
        refine born.kept.leads_column fun _ after afterKept es tags _ => ?_
        have eq := herd_congr es tags
        have unborn : e ∉ herd w tag := fun mem => born.fresh e (mem_herd.mp mem).1 rfl
        refine fun _ => ⟨afterKept, ?_, fun other ne => ?_⟩
        · rw [eq, born.herd, card_insert_of_notMem unborn]
        · rw [eq, born.others other ne]
    · rintro ⟨middleKept, count, others⟩
      refine (ih middleKept stream).mono fun _ after ended fits => ?_
      obtain ⟨afterKept, total, unchanged⟩ := ended fits
      refine ⟨afterKept, by omega, fun other ne => ?_⟩
      rw [unchanged other ne, others other ne]

end

end Kept

theorem of_registerTag {name : String} (laid : w.Laid metadata (layout codec))
    (ran : w.runCode sortSlice (registerTag name) = some (tag, after)) :
    after.Laid metadata (layout codec) ∧ after.entities = w.entities ∧
      after.tagStore = w.tagStore ∧ (tag, after.tags) = w.tags.register name := by
  cases ran
  exact ⟨laid.run (show (Operation.registerTag name : Operation _).Within _ from trivial)
    (show run sortSlice _ _ = _ from rfl), rfl, rfl, rfl⟩

theorem leads_setUp (c : Config) (seedValue : UInt64) :
    (new metadata).LeadsIn sortSlice ((configure c).setUp seedValue :
      Code (ecosystemTypes codec) Ecosystem) fun m after => Kept metadata m after ∧
        m.cfg = c.withDefaults ∧
        ((population after m.animalTag).length : Int) = c.withDefaults.animals := by
  have planted : 0 < (configure c).cfg.plants := by
    simp only [configure, Config.withDefaults]
    split <;> omega
  have inhabited : 0 < c.withDefaults.animals := by
    simp only [Config.withDefaults]
    split <;> omega
  refine meets_of_run fun m final ran fits => ?_
  unfold setUp at ran
  simp only [if_neg planted.ne'] at ran
  obtain ⟨energyID, first, reg, ran⟩ := runCode_bind_eq_some ran
  have new := laid_new (G := ecosystemTypes codec) metadata
  obtain ⟨rfl, firstLaid⟩ := new.registerComponent not_mem_nil reg
  obtain ⟨es, store, names⟩ :
      first.entities = .new ∧ first.tagStore = .new ∧ first.tags = .new := by
    cases (new.runCode_register not_mem_nil _).symm.trans reg
    exact ⟨rfl, rfl, rfl⟩
  obtain ⟨animalTag, second, named, ran⟩ := runCode_bind_eq_some ran
  obtain ⟨secondLaid, secondEntities, secondStore, animalEq⟩ := of_registerTag firstLaid named
  obtain ⟨plantTag, third, named, ran⟩ := runCode_bind_eq_some ran
  obtain ⟨laid, thirdEntities, thirdStore, plantEq⟩ := of_registerTag secondLaid named
  rw [names] at animalEq
  obtain ⟨rfl, tags⟩ := Prod.mk.inj animalEq
  rw [tags] at plantEq
  obtain ⟨rfl, _⟩ := Prod.mk.inj plantEq
  rw [secondEntities, es] at thirdEntities
  rw [secondStore, store] at thirdStore
  have untagged : ∀ e tag, third.tagStore.has e tag = false := by
    rw [thirdStore]
    exact fun _ _ => rfl
  have lone : ∀ tag, herd third tag = ∅ := by
    intro tag
    ext e
    simp [mem_herd, untagged]
  have start : Kept metadata { configure c with energyID := 0, animalTag := 0, plantTag := 1 }
      third := by
    refine ⟨laid, rfl, by simp, ?_, ?_, ?_, ?_⟩
    · unfold World.Fits
      rw [thirdEntities]
      decide
    · rw [thirdEntities]
      intro e live
      cases live
    · intro e tag has
      rw [untagged] at has
      cases has
    · exact fun e _ => untagged e _
  obtain ⟨stream, fourth, planting, ran⟩ := runCode_bind_eq_some ran
  obtain ⟨_, fifth, herding, ends⟩ := runCode_bind_eq_some ran
  cases ends
  have fourthFits := fits.of_runCode herding
  obtain ⟨fourthKept, _, others⟩ := (start.leads_seed 1 3 3 _ _).of_run planting fourthFits
  obtain ⟨finalKept, count, _⟩ := (fourthKept.leads_seed 0 4 4 _ _).of_run herding fits
  refine ⟨finalKept, rfl, ?_⟩
  have length := finalKept.card_herd 0
  rw [count, others 0 (by decide), lone, card_empty, Nat.zero_add] at length
  refine (congrArg Int.ofNat length.symm).trans ?_
  exact Int.toNat_of_nonneg inhabited.le

section Runs

variable {c : Config} {k j : Nat} {fresh current paused : (program codec c).Sim}

/-- The number of live animals -/
def animals (sim : (program codec c).Sim) : Int :=
  (population sim.world (animalTag sim.model)).length

theorem exists_next (less : j < k) (fits : paused.world.Fits)
    (ran : (program codec c).advance sortSlice k fresh = some paused)
    (reached : (program codec c).advance sortSlice j fresh = some current) :
    ∃ next, (program codec c).advance sortSlice (j + 1) fresh = some next ∧ next.world.Fits ∧
      current.world.runCode sortSlice (tickStep step current.model) =
        some (next.model, next.world) := by
  obtain ⟨n, rfl⟩ := Nat.exists_eq_add_of_lt less
  rw [Nat.add_right_comm, advance_add (j + 1)] at ran
  obtain ⟨next, stepped, rest⟩ := bind_eq_some_iff.mp ran
  obtain ⟨ended, later, rfl⟩ := map_eq_some_iff.mp rest
  refine ⟨next, stepped, fits.of_runCode later, ?_⟩
  rw [advance_add, reached, bind_some] at stepped
  obtain ⟨ended, once, rfl⟩ := map_eq_some_iff.mp stepped
  obtain ⟨_, _, first, last⟩ := runCode_bind_eq_some once
  cases last
  exact first

theorem kept_advance (made : (program codec c).new sortSlice metadata = some fresh)
    (reached : (program codec c).advance sortSlice j fresh = some current)
    (fits : current.world.Fits) :
    Kept metadata current.model current.world ∧ cfg current.model = c.withDefaults := by
  induction j generalizing current with
  | zero =>
    cases reached
    obtain ⟨⟨m, w⟩, setUp, rfl⟩ := map_eq_some_iff.mp made
    obtain ⟨kept, config, _⟩ := (leads_setUp c metadata.seed).of_run setUp fits
    exact ⟨kept, config⟩
  | succ j ih =>
    have ran := reached
    rw [advance_add] at reached
    obtain ⟨before, earlier, _⟩ := bind_eq_some_iff.mp reached
    obtain ⟨next, again, _, stepped⟩ := exists_next j.lt_succ_self fits ran earlier
    cases ran.symm.trans again
    obtain ⟨kept, config⟩ := ih earlier (fits.of_runCode stepped)
    obtain ⟨stillKept, same, _⟩ := kept.tick fits stepped
    exact ⟨stillKept, same.trans config⟩

/-- The balance of one tick of a run -/
theorem animals_next (made : (program codec c).new sortSlice metadata = some fresh)
    (less : j < k) (fits : paused.world.Fits)
    (ran : (program codec c).advance sortSlice k fresh = some paused)
    (reached : (program codec c).advance sortSlice j fresh = some current) :
    ∃ next cursor grazed, (program codec c).advance sortSlice (j + 1) fresh = some next ∧
      current.world.runCode sortSlice (pasture current.model) = some (cursor, grazed) ∧
      animals next + (starving current.model grazed).length = animals current +
        if animals current < c.withDefaults.maxAnimals
          then ((wellFed current.model grazed).length : Int) else 0 := by
  obtain ⟨next, again, nextFits, stepped⟩ := exists_next less fits ran reached
  obtain ⟨kept, config⟩ := kept_advance made reached (nextFits.of_runCode stepped)
  obtain ⟨_, _, sameTag, cursor, grazed, grazes, same, balance⟩ := kept.tick nextFits stepped
  refine ⟨next, cursor, grazed, again, grazes, ?_⟩
  unfold births at balance
  rw [same, config] at balance
  have counted : animals next = (population next.world (animalTag current.model)).length := by
    rw [animals, sameTag]
  rw [counted, animals]
  split <;> rename_i small
  · rw [if_pos small] at balance
    exact_mod_cast balance
  · rw [if_neg small] at balance
    exact_mod_cast balance

/-- Before the entity indices run out, the animals never exceed the larger of
their first number and `MaxAnimals` exactly when in every tick that begins below
`MaxAnimals` the births fit: no more animals are well fed after grazing than
places are left or become free. -/
theorem capacity_respected_iff (made : (program codec c).new sortSlice metadata = some fresh)
    (ran : (program codec c).advance sortSlice k fresh = some paused) (fits : paused.world.Fits) :
    animals fresh = c.withDefaults.animals ∧
    ((∀ j ≤ k, ∀ current, (program codec c).advance sortSlice j fresh = some current →
        animals current ≤ max (animals fresh) c.withDefaults.maxAnimals) ↔
      ∀ j < k, ∀ current cursor grazed, (program codec c).advance sortSlice j fresh = some current →
        current.world.runCode sortSlice (pasture current.model) = some (cursor, grazed) →
        animals current < c.withDefaults.maxAnimals →
        ((wellFed current.model grazed).length : Int) ≤ (starving current.model grazed).length +
          (max (animals fresh) c.withDefaults.maxAnimals - animals current)) := by
  refine ⟨?_, fun bounded j less current cursor grazed reached grazes small => ?_,
    fun births j least => ?_⟩
  · obtain ⟨⟨m, w⟩, setUp, rfl⟩ := map_eq_some_iff.mp made
    obtain ⟨ended, rest, rfl⟩ := map_eq_some_iff.mp ran
    exact ((leads_setUp c metadata.seed).of_run setUp (fits.of_runCode rest)).2.2
  · obtain ⟨next, _, _, again, grazing, balance⟩ := animals_next made less fits ran reached
    cases grazes.symm.trans grazing
    rw [if_pos small] at balance
    have within := bounded (j + 1) less next again
    omega
  · induction j with
    | zero =>
      intro current reached
      cases reached
      exact le_max_left _ _
    | succ j ih =>
      intro after again
      have earlier : ∃ current, (program codec c).advance sortSlice j fresh = some current := by
        rw [advance_add] at again
        obtain ⟨current, reached, _⟩ := bind_eq_some_iff.mp again
        exact ⟨current, reached⟩
      obtain ⟨current, reached⟩ := earlier
      have within := ih (by omega) current reached
      obtain ⟨next, cursor, grazed, stepped, grazing, balance⟩ :=
        animals_next made least fits ran reached
      cases again.symm.trans stepped
      split at balance <;> rename_i small
      · have room := births j least current cursor grazed reached grazing small
        omega
      · omega

abbrev sampleProgram : ModelProgram (ecosystemTypes (ShippedModel.noCodec _)) :=
  program (ShippedModel.noCodec _) ⟨1, 2, 3⟩

def sampleMetadata (seed : UInt64) : Metadata :=
  ⟨"a", "ecosystem", "1.0.0", seed, .tick⟩

theorem capacity_respected_sample : ∃ fresh paused,
    sampleProgram.new (fun _ events => events) (sampleMetadata 0) = some fresh ∧
    sampleProgram.advance (fun _ events => events) 2 fresh = some paused ∧
    paused.world.Fits ∧ animals fresh = 2 ∧ animals paused = 3 ∧ ∀ j < 2, ∀ current cursor grazed,
      sampleProgram.advance (fun _ events => events) j fresh = some current →
      current.world.runCode (fun _ events => events) (pasture current.model) =
        some (cursor, grazed) → animals current < 3 →
      ((wellFed current.model grazed).length : Int) ≤
        (starving current.model grazed).length + (3 - animals current) := by
  obtain ⟨fresh, mid, paused, made, once, ran, fits, first, second, third⟩ : ∃ fresh mid paused,
        sampleProgram.new (fun _ events => events) (sampleMetadata 0) = some fresh ∧
        sampleProgram.advance (fun _ events => events) 1 fresh = some mid ∧
        sampleProgram.advance (fun _ events => events) 2 fresh = some paused ∧
        paused.world.entities.versions.length = 4 ∧ animals fresh = 2 ∧ animals mid = 2 ∧
        animals paused = 3 := ⟨_, _, _, rfl, rfl, rfl, rfl, rfl, rfl, rfl⟩
  have fits : paused.world.Fits := fits.trans_lt (by decide)
  have fitting_iff := (capacity_respected_iff made ran fits).2
  have top : max (animals fresh) (Config.withDefaults ⟨1, 2, 3⟩).maxAnimals = 3 := by
    rw [first]
    rfl
  rw [top] at fitting_iff
  refine ⟨fresh, paused, made, ran, fits, first, third, fitting_iff.mp fun j least current reached => ?_⟩
  obtain rfl | rfl | rfl : j = 0 ∨ j = 1 ∨ j = 2 := by omega
  · cases reached
    exact first.le.trans (by decide)
  · cases once.symm.trans reached
    omega
  · cases ran.symm.trans reached
    omega

/-- Two of two animals give birth in one tick, though there is room for one. -/
theorem capacity_exceeded : ∃ fresh paused,
    sampleProgram.new (fun _ events => events) (sampleMetadata 3) = some fresh ∧
    sampleProgram.advance (fun _ events => events) 2 fresh = some paused ∧
    animals fresh = 2 ∧ animals paused = 4 :=
  ⟨_, _, rfl, rfl, rfl, rfl⟩

end Runs

end Ecosystem

end Simulator
