import Simulator.ColumnProvenance

/-!
# A column as a map

What `Get` returns after the other operations.
-/

namespace Simulator

open SparseIndex List

namespace Column

variable {α : Type} {c : Column α} {e other : EntityID}

variable {place : Nat} {v old : α}

theorem key_eq_of_place (spot : c.place e = some place)
    (eq : c.place other = some place) : e.key = other.key := by
  have held := c.points _ _ spot
  rw [c.points _ _ eq] at held
  exact (Option.some.inj held).symm

theorem place_add_of_ne (different : other.key ≠ e.key) (v : α) :
    (c.add e v).place other = c.place other := by
  simp only [place, add]
  rw [position_set_of_ne _ different, position_grow]

theorem place_add_self (v : α) : (c.add e v).place e = some c.data.length := by
  simp only [place, add]
  exact position_set_succ_self _ (lt_length_grow c.sparse e.key)

theorem get_congr (sameKey : e.key = other.key) : c.get e = c.get other := by
  simp only [get, place, sameKey]

theorem get_set_self (c : Column α) (e : EntityID) (v : α) : (c.set e v).get e = some v := by
  rw [get_eq_some]
  cases spot : c.place e with
  | none =>
    rw [set_of_absent v spot]
    exact ⟨_, place_add_self v, by simp [add]⟩
  | some place =>
    rw [set_of_present v spot]
    refine ⟨place, spot, ?_⟩
    exact getElem?_set_self (place_lt spot)

theorem get_set_of_ne (ne : other.key ≠ e.key) (v : α) : (c.set e v).get other = c.get other := by
  cases recorded : c.place e with
  | none =>
    rw [set_of_absent v recorded]
    unfold get
    rw [place_add_of_ne ne]
    cases hit : c.place other with
    | none => rfl
    | some place => exact getElem?_append_left (place_lt hit)
  | some place =>
    rw [set_of_present v recorded]
    have unmoved : (c.write place v).place other = c.place other := rfl
    unfold get
    rw [unmoved]
    cases hit : c.place other with
    | none => rfl
    | some spot =>
      refine getElem?_set_ne ?_
      rintro rfl
      exact ne (key_eq_of_place hit recorded)

theorem Consistent.get_remove_of_ne (valid : c.Consistent)
    (ne : other.key ≠ e.key) (hit : c.get other = some v) : (c.remove e).2.get other = some v := by
  cases spot : c.place e with
  | none => rwa [remove_of_absent spot]
  | some hole =>
    rw [remove_of_present spot]
    have erased := valid.remove e
    rw [remove_of_present spot] at erased
    obtain ⟨place, placed, valued⟩ := get_eq_some.mp hit
    obtain ⟨holder, held, sameKey⟩ := valid.place_iff.mp placed
    have inData := place_lt spot
    have inDense : hole < c.dense.length := by rwa [c.aligned]
    have here : place < c.dense.length := by
      rw [c.aligned]
      exact place_lt placed
    have notHole : place ≠ hole := by
      rintro rfl
      exact ne (key_eq_of_place placed spot)
    have denseHeld := getElem?_swapErase_of_ne inDense here notHole
    have dataHeld := getElem?_swapErase_of_ne inData (place_lt placed) notHole
    rw [c.aligned, held] at denseHeld
    rw [valued] at dataHeld
    exact get_eq_some.mpr ⟨_, erased.place_iff.mpr ⟨holder, denseHeld, sameKey⟩, dataHeld⟩

theorem head?_entityIDs_set (first : c.entityIDs.head? = some other) (e : EntityID) (v : α) :
    (c.set e v).entityIDs.head? = some other := by
  cases spot : c.place e with
  | none =>
    rw [set_of_absent v spot]
    have added : (c.add e v).entityIDs = c.entityIDs ++ [e] := rfl
    rw [added, head?_append, first]
    rfl
  | some place =>
    rw [set_of_present v spot]
    exact first

def First (holds : α → Prop) (c : Column α) : Prop :=
  ∃ e v, c.entityIDs.head? = some e ∧ c.get e = some v ∧ holds v

theorem first_set {holds : α → Prop} (known : c = .empty ∨ c.First holds) (good : holds v) :
    (c.set e v).First holds := by
  rcases known with rfl | ⟨first, old, head, hit, oldGood⟩
  · exact ⟨e, v, rfl, get_set_self _ e v, good⟩
  · by_cases eq : first.key = e.key
    · refine ⟨first, v, head?_entityIDs_set head e v, ?_, good⟩
      rw [get_congr eq]
      exact get_set_self c e v
    · exact ⟨first, old, head?_entityIDs_set head e v, (get_set_of_ne eq v).trans hit, oldGood⟩

theorem Consistent.eq_of_key_eq (valid : c.Consistent)
    (mem : e ∈ c.entityIDs) (otherMember : other ∈ c.entityIDs)
    (sameKey : e.key = other.key) : e = other :=
  inj_on_of_nodup_map valid.nodup mem otherMember sameKey

theorem each_write (c : Column α) (held : c.dense[place]? = some e) (v : α) :
    (c.write place v).each = c.each.set place (e, v) := by
  obtain ⟨inRange, heldEq⟩ := List.getElem?_eq_some_iff.mp held
  apply ext_getElem
  · simp [each, write]
  · intro i _ _
    simp only [each, write, getElem_zip, getElem_set]
    split
    · subst i
      rw [heldEq]
    · rfl

theorem each_drop (c : Column α) (spot : c.place e = some place) :
    (c.drop e place spot).each = swapErase c.each place := by
  have dense : c.dense = c.each.map Prod.fst := (map_fst_zip c.aligned.le).symm
  have data : c.data = c.each.map Prod.snd := (map_snd_zip c.aligned.ge).symm
  have erased : (c.drop e place spot).each =
      (swapErase c.dense place).zip (swapErase c.data place) := rfl
  rw [erased, dense, data, ← map_swapErase, ← map_swapErase, ← unzip_fst, ← unzip_snd, zip_unzip]

theorem Consistent.each_split (valid : c.Consistent) (mem : (e, old) ∈ c.each) :
    ∃ others, c.each.Perm ((e, old) :: others) ∧
      (∀ v, (c.set e v).each.Perm ((e, v) :: others)) ∧ (c.remove e).2.each.Perm others := by
  obtain ⟨place, held, value⟩ := mem_each.mp mem
  have spot : c.place e = some place := valid.place_iff.mpr ⟨e, held, rfl⟩
  have pair : c.each[place]? = some (e, old) := getElem?_zip_eq_some.mpr ⟨held, value⟩
  obtain ⟨inRange, pairEq⟩ := List.getElem?_eq_some_iff.mp pair
  have split : c.each.Perm ((e, old) :: c.each.eraseIdx place) := by
    rw [← pairEq]
    exact (getElem_cons_eraseIdx_perm inRange).symm
  refine ⟨c.each.eraseIdx place, split, fun v => ?_, ?_⟩
  · rw [set_of_present v spot, each_write c held v]
    exact set_perm_cons_eraseIdx inRange (e, v)
  · rw [remove_of_present spot, each_drop]
    exact ((perm_swapErase pair).symm.trans split).cons_inv

theorem Consistent.nodup_each (valid : c.Consistent) : (c.each.map Prod.fst).Nodup := by
  rw [each, map_fst_zip c.aligned.le]
  exact valid.nodup.of_map

theorem mem_each_set {id : EntityID}
    (mem : (id, old) ∈ (c.set e v).each) : (id, old) ∈ c.each ∨ old = v := by
  cases spot : c.place e with
  | none =>
    rw [set_of_absent v spot, each_add, mem_append, mem_singleton] at mem
    exact mem.imp_right fun eq => congrArg Prod.snd eq
  | some place =>
    rw [set_of_present v spot, mem_each] at mem
    obtain ⟨i, held, value⟩ := mem
    simp only [write, getElem?_set] at held value
    split at value
    · split at value
      · exact .inr (Option.some.inj value).symm
      · cases value
    · exact .inl (mem_each.mpr ⟨i, held, value⟩)

theorem each_set_ne_nil (c : Column α) (e : EntityID) (v : α) : (c.set e v).each ≠ [] := by
  cases spot : c.place e with
  | none =>
    rw [set_of_absent v spot, each_add]
    exact append_ne_nil_of_right_ne_nil _ (cons_ne_nil _ _)
  | some place =>
    have inData := place_lt spot
    rw [set_of_present v spot]
    apply ne_nil_of_length_pos
    simp only [each, write, length_zip, length_set, c.aligned]
    omega

theorem Consistent.ext_get {first second : Column α} (valid : first.Consistent)
    (again : second.Consistent) (sparse : first.sparse = second.sparse)
    (dense : first.dense = second.dense) (allocated : first.allocated = second.allocated)
    (vs : ∀ e ∈ first.entityIDs, first.get e = second.get e) : first = second := by
  have data : first.data = second.data := by
    apply ext_getElem?
    intro place
    cases held : first.dense[place]? with
    | none =>
      have ge := getElem?_eq_none_iff.mp held
      rw [getElem?_eq_none (first.aligned ▸ ge), getElem?_eq_none (second.aligned ▸ dense ▸ ge)]
    | some e =>
      have eq := vs e (mem_of_getElem? held)
      have spot : first.place e = some place := valid.place_iff.mpr ⟨e, held, rfl⟩
      have alsoRecorded : second.place e = some place := again.place_iff.mpr ⟨e, dense ▸ held, rfl⟩
      simpa only [get, spot, alsoRecorded] using eq
  cases first
  cases second
  simp_all

theorem set_comm {u : α} (present : c.has e = true) (otherPresent : c.has other = true)
    (ne : other.key ≠ e.key) : (c.set e v).set other u = (c.set other u).set e v := by
  obtain ⟨place, spot⟩ := Option.isSome_iff_exists.mp present
  obtain ⟨otherPlace, otherRecorded⟩ := Option.isSome_iff_exists.mp otherPresent
  have apart : place ≠ otherPlace := by
    rintro rfl
    exact ne (key_eq_of_place otherRecorded spot)
  rw [set_of_present v spot, set_of_present u otherRecorded,
    set_of_present u (show (c.write place v).place other = some otherPlace from otherRecorded),
    set_of_present v (show (c.write otherPlace u).place e = some place from spot)]
  simp only [write, List.set_comm _ _ apart]

theorem Consistent.exists_get (valid : c.Consistent) (mem : e ∈ c.entityIDs) :
    ∃ v, c.get e = some v := by
  obtain ⟨place, held⟩ := mem_iff_getElem?.mp mem
  have inData : place < c.data.length := by
    rw [← c.aligned]
    exact (List.getElem?_eq_some_iff.mp held).1
  exact ⟨_, get_eq_some.mpr ⟨place, valid.place_iff.mpr ⟨e, held, rfl⟩, getElem?_eq_getElem inData⟩⟩

theorem has_of_get (hit : c.get e = some v) : c.has e = true := by
  obtain ⟨place, spot, _⟩ := get_eq_some.mp hit
  rw [has, spot]
  rfl

theorem Consistent.key_ne_of_mem_remove (valid : c.Consistent)
    (mem : other ∈ (c.remove e).2.entityIDs) : other.key ≠ e.key := by
  intro eq
  obtain ⟨v, hit⟩ := (valid.remove e).exists_get mem
  obtain ⟨place, spot, _⟩ := get_eq_some.mp hit
  cases held : c.place e with
  | none =>
    rw [remove_of_absent held, Column.place, eq] at spot
    rw [Column.place, spot] at held
    cases held
  | some hole =>
    rw [remove_of_present held, Column.place, eq] at spot
    rw [show (c.drop e hole held).sparse = redirect c.sparse c.keys hole e.key from rfl,
      position_redirect_self] at spot
    cases spot

theorem Consistent.mem_remove_of_ne (valid : c.Consistent) (mem : other ∈ c.entityIDs)
    (ne : other.key ≠ e.key) : other ∈ (c.remove e).2.entityIDs := by
  obtain ⟨v, hit⟩ := valid.exists_get mem
  obtain ⟨place, spot, _⟩ := get_eq_some.mp (valid.get_remove_of_ne ne hit)
  obtain ⟨holder, held, eq⟩ := (valid.remove e).place_iff.mp spot
  have listed := mem_of_getElem? held
  rwa [← valid.eq_of_key_eq (mem_of_mem_remove listed) mem eq]

theorem Consistent.remove_set_comm (valid : c.Consistent)
    (present : other ∈ c.entityIDs) (ne : other.key ≠ e.key) :
    (c.set other v).remove e = ((c.remove e).1, (c.remove e).2.set other v) := by
  obtain ⟨old, hit⟩ := valid.exists_get present
  obtain ⟨place, recorded, _⟩ := get_eq_some.mp hit
  cases held : c.place e with
  | none =>
    have stillNone : (c.write place v).place e = none := held
    rw [remove_of_absent held, set_of_present v recorded, remove_of_absent stillNone]
  | some hole =>
    have wrote : (c.set other v).remove e = (true, (c.write place v).drop e hole held) := by
      rw [set_of_present v recorded]
      exact remove_of_present (c := c.write place v) held
    obtain ⟨spot, moved, _⟩ := get_eq_some.mp (valid.get_remove_of_ne ne hit)
    have removed : (c.remove e).2.set other v = (c.drop e hole held).write spot v := by
      rw [set_of_present v moved, remove_of_present held]
    refine Prod.ext (by rw [wrote, remove_of_present held]) ?_
    refine ((valid.set other v).remove e).ext_get ((valid.remove e).set other v) ?_ ?_ ?_ ?_
    · rw [wrote, removed]; rfl
    · rw [wrote, removed]; rfl
    · rw [wrote, removed]; rfl
    · intro x mem
      have notErased := (valid.set other v).key_ne_of_mem_remove mem
      by_cases eq : x.key = other.key
      · rw [get_congr eq, get_congr (c := (c.remove e).2.set other v) eq, get_set_self]
        exact (valid.set other v).get_remove_of_ne ne (get_set_self c other v)
      · have listed := mem_of_mem_remove mem
        obtain ⟨u, valued⟩ := (valid.set other v).exists_get listed
        rw [(valid.set other v).get_remove_of_ne notErased valued, get_set_of_ne eq]
        rw [get_set_of_ne eq] at valued
        exact (valid.get_remove_of_ne notErased valued).symm

end Column

end Simulator
