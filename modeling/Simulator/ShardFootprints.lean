import Simulator.SchedulerLevels
import Simulator.WorldStore

/-!
# The obligation of a system

What a system may read and write when it updates the entities of a shard.
-/

namespace Simulator

open Interleaving List

variable {G : GoTypes}

namespace System

def footprint (sys : System G) (e : EntityID) :
    Footprint World.Location where
  reads := {location | (location.1 ∈ sys.reads ∨ location.1 ∈ sys.writes) ∧ location.2 = e.key ∨
      location.1 ∈ sys.reads ∧ location.1 ∉ sys.writes}
  writes := {location | location.1 ∈ sys.writes ∧ location.2 = e.key}

/-- The obligation of a system: `Run` updates the entities of its shard one
by one in shard order, and each update keeps within its footprint. -/
def SelfContained (sys : System G) (w : World G) (entities : List EntityID) : Prop :=
  ∃ update : EntityID → Process (World G) Unit, (∀ shard, sys.run shard =
      (Process.forEach update shard).andThen (.halt none)) ∧
    ∀ e ∈ entities, Within (World.store G) w (sys.footprint e) (update e)

def shardFootprint (sys : System G) (shard : List EntityID) :
    Footprint World.Location where
  reads := {location | (location.1 ∈ sys.reads ∨ location.1 ∈ sys.writes) ∧
        location.2 ∈ shard.map EntityID.key ∨ location.1 ∈ sys.reads ∧ location.1 ∉ sys.writes}
  writes := {location | location.1 ∈ sys.writes ∧ location.2 ∈ shard.map EntityID.key}

def wholeFootprint (sys : System G) : Footprint World.Location where
  reads := {location | location.1 ∈ sys.reads ∨ location.1 ∈ sys.writes}
  writes := {location | location.1 ∈ sys.writes}

variable {sys : System G}

theorem shardFootprint_spares_of_disjoint {first second : List EntityID}
    (disjoint : ∀ e ∈ first, ∀ e' ∈ second, e.key ≠ e'.key) :
    (sys.shardFootprint first).Spares (sys.shardFootprint second) := by
  refine Set.disjoint_left.mpr ?_
  rintro loc ⟨wrote, inFirst⟩ touched
  have notInSecond : loc.2 ∉ second.map EntityID.key := by
    intro inSecond
    obtain ⟨e, mem, keyEq⟩ := mem_map.mp inFirst
    obtain ⟨e', member', keyEq'⟩ := mem_map.mp inSecond
    exact disjoint e mem e' member' (keyEq.trans keyEq'.symm)
  rcases touched with (⟨_, inSecond⟩ | ⟨_, notWritten⟩) | ⟨_, inSecond⟩
  · exact notInSecond inSecond
  · exact notWritten wrote
  · exact notInSecond inSecond

theorem touched_shardFootprint {shard : List EntityID} {loc : World.Location}
    (touched : loc ∈ (sys.shardFootprint shard).touched) :
    loc.1 ∈ sys.reads ∨ loc.1 ∈ sys.writes := by
  rcases touched with (⟨either, _⟩ | ⟨read, _⟩) | ⟨wrote, _⟩
  · exact either
  · exact .inl read
  · exact .inr wrote

variable {first second : System G}

section

variable (independent : conflicts first second = false)
include independent

theorem not_touched_of_not_conflicts {id : ComponentID}
    (wrote : id ∈ first.writes) : ¬ (id ∈ second.reads ∨ id ∈ second.writes) := by
  intro touched
  have conflict : conflicts first second = true := conflicts_iff.mpr (.inl ⟨id, wrote, touched⟩)
  rw [independent] at conflict
  cases conflict

theorem shardFootprint_spares_of_not_conflicts (left right : List EntityID) :
    (first.shardFootprint left).Spares (second.shardFootprint right) := by
  refine Set.disjoint_left.mpr ?_
  rintro loc ⟨wrote, _⟩ touched
  exact not_touched_of_not_conflicts independent wrote (touched_shardFootprint touched)

theorem wholeFootprint_spares_of_not_conflicts :
    first.wholeFootprint.Spares second.wholeFootprint := by
  refine Set.disjoint_left.mpr ?_
  rintro loc wrote (touched | alsoWritten)
  · exact not_touched_of_not_conflicts independent wrote touched
  · exact not_touched_of_not_conflicts independent wrote (.inr alsoWritten)

end

namespace SelfContained

variable {sys : System G} {w : World G} {entities shard : List EntityID}

section

variable (contained : sys.SelfContained w entities)
include contained

theorem within_shard (lt : ∀ e ∈ shard, e ∈ entities) :
    Within (World.store G) w (sys.shardFootprint shard) (sys.run shard) := by
  obtain ⟨update, runEq, within⟩ := contained
  rw [runEq]
  refine Within.andThen (Within.forEach fun e mem => ?_) trivial
  refine (within e (lt e mem)).mono ?_ ?_
  · rintro loc (⟨either, keyEq⟩ | readOnly)
    · exact .inl (.inl ⟨either, keyEq ▸ mem_map_of_mem mem⟩)
    · exact .inl (.inr readOnly)
  · rintro loc ⟨wrote, keyEq⟩
    exact ⟨wrote, keyEq ▸ mem_map_of_mem mem⟩

theorem within_whole (lt : ∀ e ∈ shard, e ∈ entities) :
    Within (World.store G) w sys.wholeFootprint (sys.run shard) := by
  refine (contained.within_shard lt).mono ?_ ?_
  · rintro loc (⟨either, _⟩ | ⟨read, _⟩)
    · exact .inl either
    · exact .inl (.inl read)
  · rintro loc ⟨wrote, _⟩
    exact wrote

theorem returns_none (shard : List EntityID) : (sys.run shard).Returns none := by
  obtain ⟨update, runEq, _⟩ := contained
  rw [runEq]
  exact Process.returns_andThen _ rfl

theorem foldl_exec (shards : List (List EntityID)) (cur : World G) :
    shards.foldl (fun cur shard => (sys.run shard).exec cur)
        cur = (sys.run shards.flatten).exec cur := by
  obtain ⟨update, runEq, _⟩ := contained
  have exec : ∀ shard cur, (sys.run shard).exec cur = (Process.forEach update shard).exec cur := by
    intro shard cur
    rw [runEq, Process.exec_andThen, Process.exec_halt]
  simp only [exec]
  exact (Process.exec_forEach_flatten update shards cur).symm

end

end SelfContained

end System

end Simulator
