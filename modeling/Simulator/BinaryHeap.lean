import Mathlib.Data.List.Induction
import Mathlib.Data.List.Perm.Basic
import Mathlib.Data.Nat.Basic
import Mathlib.Order.Basic

/-!
# Binary heaps over a comparison that may not be total

Some elements may compare with nothing, as a floating-point key that is not a number.
Such an element never moves during sifting and can hide a smaller right sibling, so
`Settled` asks for heap order only where none excuses a child.
-/

namespace BinaryHeap

open List

variable {α : Type*}

/-- Whether the element at `first` comes before the one at `second`. -/
def lessAt (less : α → α → Bool) (heap : List α) (first second : Nat) : Bool :=
  match heap[first]?, heap[second]? with
  | some x, some y => less x y
  | _, _ => false

def swap (heap : List α) (first second : Nat) : List α :=
  match heap[first]?, heap[second]? with
  | some x, some y => (heap.set first y).set second x
  | _, _ => heap

/-- Sift the element at `child` up.  The fuel bounds the loop; `child` itself
is always enough. -/
def up (less : α → α → Bool) : Nat → List α → Nat → List α
  | 0, heap, _ => heap
  | fuel + 1, heap, child =>
    let parent := (child - 1) / 2
    if parent = child || !lessAt less heap child parent then
      heap
    else
      up less fuel (swap heap parent child) parent

/-- The child of `hole` to compare with: the right one if it comes before the
left one, and otherwise the left one. -/
def pick (less : α → α → Bool) (limit : Nat) (heap : List α) (hole : Nat) : Nat :=
  let left := 2 * hole + 1
  if left + 1 < limit && lessAt less heap (left + 1) left then
    left + 1
  else
    left

/-- Sift the element at `hole` down among the first `limit` positions. -/
def down (less : α → α → Bool) (limit : Nat) :
    Nat → List α → Nat → List α
  | 0, heap, _ => heap
  | fuel + 1, heap, hole =>
    if limit ≤ 2 * hole + 1 then
      heap
    else
      let child := pick less limit heap hole
      if !lessAt less heap child hole then
        heap
      else
        down less limit fuel (swap heap hole child) child

def push (less : α → α → Bool) (heap : List α) (element : α) : List α :=
  up less heap.length (heap ++ [element]) heap.length

def pop (less : α → α → Bool) (heap : List α) : Option (α × List α) :=
  let last := heap.length - 1
  let sifted := down less last last (swap heap 0 last) 0
  match sifted.getLast? with
  | none => none
  | some top => some (top, sifted.dropLast)

structure WeakOrder (less : α → α → Bool) (Known : α → Prop) : Prop where
  known_left : ∀ {x y}, less x y = true → Known x
  known_right : ∀ {x y}, less x y = true → Known y
  asymm : ∀ {x y}, less x y = true → less y x = false
  not_less_trans : ∀ {x y z}, Known x → Known y → Known z →
    less x y = false → less y z = false → less x z = false

/-- `child` is one of the two children of `parent`. -/
def IsChild (child parent : Nat) : Prop :=
  child = 2 * parent + 1 ∨ child = 2 * parent + 2

inductive Descends (ancestor : Nat) : Nat → Prop
  | refl : Descends ancestor ancestor
  | child {parent child : Nat} : Descends ancestor parent → IsChild child parent →
        Descends ancestor child

/-- Some ancestor of `child`, or `child` itself, is a right child whose left
sibling is incomparable. -/
def Excused (Known : α → Prop) (heap : List α) (child : Nat) : Prop :=
  ∃ parent, Descends (2 * parent + 2) child ∧
    ∃ element, heap[2 * parent + 1]? = some element ∧ ¬ Known element

/-- Heap order among the first `limit` positions, up to excused children. -/
def Settled (less : α → α → Bool) (Known : α → Prop) (limit : Nat) (heap : List α) : Prop :=
  ∀ parent child, IsChild child parent → child < limit →
    lessAt less heap child parent = true → Excused Known heap child

variable {parent first second : Nat} {heap : List α} {less : α → α → Bool}

theorem IsChild.lt {child : Nat} (isChild : IsChild child parent) : parent < child := by
  unfold IsChild at isChild
  omega

theorem IsChild.parent_eq {child : Nat}
    (isChild : IsChild child parent) : (child - 1) / 2 = parent := by
  unfold IsChild at isChild
  omega

theorem isChild_parent {child : Nat} (pos : 0 < child) : IsChild child ((child - 1) / 2) := by
  unfold IsChild
  omega

theorem IsChild.parent_unique {child : Nat}
    (firstChild : IsChild child first) (secondChild : IsChild child second) : first = second :=
  firstChild.parent_eq.symm.trans secondChild.parent_eq

theorem Descends.le {ancestor pos : Nat} (descends : Descends ancestor pos) : ancestor ≤ pos := by
  induction descends with
  | refl => exact le_rfl
  | child _ isChild ih => exact ih.trans isChild.lt.le

theorem Excused.child {Known : α → Prop} {child : Nat} (excused : Excused Known heap parent)
    (isChild : IsChild child parent) : Excused Known heap child := by
  obtain ⟨root, descends, unknown⟩ := excused
  exact ⟨root, descends.child isChild, unknown⟩

theorem lessAt_eq_true_iff :
    lessAt less heap first second = true ↔ ∃ x y, heap[first]? = some x ∧ heap[second]? = some y ∧
        less x y = true := by
  unfold lessAt
  split <;> simp_all

section

variable {y x : α} (atFirst : heap[first]? = some x) (atSecond : heap[second]? = some y)
include atFirst atSecond

theorem lessAt_eq :
    lessAt less heap first second = less x y := by
  simp [lessAt, atFirst, atSecond]

theorem swap_eq :
    swap heap first second = (heap.set first y).set second x := by
  simp [swap, atFirst, atSecond]

end

@[simp]
theorem length_swap (heap : List α) (first second : Nat) :
    (swap heap first second).length = heap.length := by
  unfold swap
  split <;> simp

@[simp]
theorem length_down (less : α → α → Bool) (limit fuel : Nat) (heap : List α) (hole : Nat) :
    (down less limit fuel heap hole).length = heap.length := by
  fun_induction down less limit fuel heap hole with
  | case1 | case2 | case3 => rfl
  | case4 _ _ _ _ _ _ ih => rw [ih, length_swap]

theorem perm_swap (heap : List α) (first second : Nat) : (swap heap first second).Perm heap := by
  unfold swap
  split
  · rename_i x y atFirst atSecond
    obtain ⟨firstLt, rfl⟩ := List.getElem?_eq_some_iff.mp atFirst
    obtain ⟨secondLt, rfl⟩ := List.getElem?_eq_some_iff.mp atSecond
    rw [← swap_eq_of_lt firstLt secondLt]
    exact swap_perm heap first second
  · exact .refl heap

theorem perm_up (less : α → α → Bool) (fuel : Nat) (heap : List α)
    (child : Nat) : (up less fuel heap child).Perm heap := by
  fun_induction up less fuel heap child with
  | case1 heap | case2 _ heap => exact .refl heap
  | case3 _ heap _ _ _ ih => exact ih.trans (perm_swap heap _ _)

theorem perm_down (less : α → α → Bool) (limit fuel : Nat) (heap : List α)
    (hole : Nat) : (down less limit fuel heap hole).Perm heap := by
  fun_induction down less limit fuel heap hole with
  | case1 heap | case2 _ heap | case3 _ heap => exact .refl heap
  | case4 _ heap _ _ _ _ ih => exact ih.trans (perm_swap heap _ _)

theorem perm_push (less : α → α → Bool) (heap : List α) (element : α) :
    (push less heap element).Perm (element :: heap) :=
  (perm_up less _ _ _).trans (perm_append_singleton element heap)

section

variable {rest : List α} {top : α} (popped : pop less heap = some (top, rest))
include popped

theorem sifted_of_pop :
    down less (heap.length - 1) (heap.length - 1) (swap heap 0 (heap.length - 1)) 0 =
      rest ++ [top] := by
  revert popped
  fun_cases pop less heap <;> rintro ⟨⟩
  exact (dropLast_append_getLast? _ ‹_›).symm

theorem perm_pop :
    heap.Perm (top :: rest) := by
  have kept := (perm_down less (heap.length - 1) (heap.length - 1) _ 0).trans
    (perm_swap heap 0 (heap.length - 1))
  rw [sifted_of_pop popped] at kept
  exact kept.symm.trans (perm_append_singleton top rest)

end

theorem eq_nil_of_pop_eq_none (nothing : pop less heap = none) : heap = [] := by
  revert nothing
  fun_cases pop less heap <;> rintro ⟨⟩
  rename_i last sifted noLast
  have length := congrArg length (getLast?_eq_none_iff.mp noLast)
  simpa [sifted] using length

theorem Settled.congr {Known : α → Prop} {limit : Nat} {other : List α}
    (settled : Settled less Known limit heap) (eq : ∀ {i : Nat}, i < limit → heap[i]? = other[i]?) :
    Settled less Known limit other := by
  intro parent child isChild childLt less'
  have := isChild.lt
  unfold lessAt at less'
  rw [← eq childLt, ← eq (by omega)] at less'
  obtain ⟨upper, descends, element, held, unknown⟩ := settled parent child isChild childLt less'
  have := descends.le
  exact ⟨upper, descends, element, by rw [← eq (by omega)]; exact held, unknown⟩

section Swapping

variable {heap : List α} {first second : Nat} {x y : α}

theorem getElem?_swap_first (atFirst : heap[first]? = some x)
    (atSecond : heap[second]? = some y) (ne : first ≠ second) :
    (swap heap first second)[first]? = some y := by
  rw [swap_eq atFirst atSecond, getElem?_set_ne ne.symm]
  exact List.getElem?_set_self (List.getElem?_eq_some_iff.mp atFirst).1

theorem getElem?_swap_second (atFirst : heap[first]? = some x) (atSecond : heap[second]? = some y) :
    (swap heap first second)[second]? = some x := by
  rw [swap_eq atFirst atSecond]
  apply getElem?_set_self
  simpa using (List.getElem?_eq_some_iff.mp atSecond).1

theorem getElem?_swap_of_ne {i : Nat} (notFirst : i ≠ first) (notSecond : i ≠ second) :
    (swap heap first second)[i]? = heap[i]? := by
  unfold swap
  split
  · rw [getElem?_set_ne notSecond.symm, getElem?_set_ne notFirst.symm]
  · rfl

theorem lessAt_swap_of_ne {less : α → α → Bool} {i other : Nat}
    (indexFirst : i ≠ first) (indexSecond : i ≠ second)
    (otherFirst : other ≠ first) (otherSecond : other ≠ second) :
    lessAt less (swap heap first second) i other =
      lessAt less heap i other := by
  unfold lessAt
  rw [getElem?_swap_of_ne indexFirst indexSecond, getElem?_swap_of_ne otherFirst otherSecond]

theorem Excused.swap {Known : α → Prop} {child : Nat}
    (atFirst : heap[first]? = some x) (atSecond : heap[second]? = some y)
    (knownFirst : Known x) (knownSecond : Known y) (excused : Excused Known heap child) :
    Excused Known (swap heap first second) child := by
  obtain ⟨parent, descends, element, held, unknown⟩ := excused
  refine ⟨parent, descends, element, ?_, unknown⟩
  have notFirst : 2 * parent + 1 ≠ first := by
    rintro rfl
    rw [atFirst] at held
    cases held
    exact unknown knownFirst
  have notSecond : 2 * parent + 1 ≠ second := by
    rintro rfl
    rw [atSecond] at held
    cases held
    exact unknown knownSecond
  rw [getElem?_swap_of_ne notFirst notSecond]
  exact held

end Swapping

section SiftUp

variable {less : α → α → Bool} {Known : α → Prop}

/-- What sifting up needs: heap order except between `child` and its parent,
and between the children of `child` and that parent. -/
structure UpReady (less : α → α → Bool) (Known : α → Prop)
    (heap : List α) (child : Nat) : Prop where
  rest : ∀ parent other, IsChild other parent → other ≠ child →
    lessAt less heap other parent = true → Excused Known heap other
  grand : ∀ parent other, IsChild child parent → IsChild other child →
    lessAt less heap other parent = true → Excused Known heap other

variable {heap : List α}

theorem UpReady.move (order : WeakOrder less Known)
    {child parent : Nat} (ready : UpReady less Known heap child) (isChild : IsChild child parent)
    (old : lessAt less heap child parent = true) :
    UpReady less Known (swap heap parent child) parent := by
  obtain ⟨x, y, atChild, atParent, xy⟩ := lessAt_eq_true_iff.mp old
  have knownX := order.known_left xy
  have knownY := order.known_right xy
  have ne : parent ≠ child := isChild.lt.ne
  have nowParent := getElem?_swap_first atParent atChild ne
  have nowChild := getElem?_swap_second atParent atChild
  have keep {other : Nat} (excused : Excused Known heap other) :
      Excused Known (swap heap parent child) other := excused.swap atParent atChild knownY knownX
  -- an element below `x` that is not excused by `y` would be below `y`
  have below {sibling : Nat} {z w : α} (notChild : sibling ≠ child)
      (siblingOf : IsChild sibling parent) (held : heap[sibling]? = some z)
      (zw : less z w = true) (yw : less y w = false) :
      Excused Known heap sibling := by
    apply ready.rest parent sibling siblingOf notChild
    rw [lessAt_eq held atParent]
    by_contra notLess
    rw [Bool.not_eq_true] at notLess
    have := order.not_less_trans (order.known_left zw) knownY (order.known_right zw) notLess yw
    rw [this] at zw
    cases zw
  constructor
  · intro upper other otherOf notParent less'
    by_cases isLower : other = child
    · subst other
      rw [← isChild.parent_unique otherOf, lessAt_eq nowChild nowParent] at less'
      rw [order.asymm xy] at less'
      cases less'
    · by_cases atUpper : upper = parent
      · subst upper
        obtain ⟨z, w, held, root, zw⟩ := lessAt_eq_true_iff.mp less'
        rw [getElem?_swap_of_ne notParent isLower] at held
        rw [nowParent] at root
        cases root
        exact keep (below isLower otherOf held zw (order.asymm xy))
      · by_cases atLower : upper = child
        · subst upper
          obtain ⟨z, w, held, root, zw⟩ := lessAt_eq_true_iff.mp less'
          rw [getElem?_swap_of_ne notParent isLower] at held
          rw [nowChild] at root
          cases root
          apply keep
          apply ready.grand parent other isChild otherOf
          rw [lessAt_eq held atParent]
          exact zw
        · rw [lessAt_swap_of_ne notParent isLower atUpper atLower] at less'
          exact keep (ready.rest upper other otherOf isLower less')
  · intro upper other parentOf otherOf less'
    have upperLt := parentOf.lt
    have upperNe : upper ≠ child := by
      have := isChild.lt
      omega
    obtain ⟨z, w, held, root, zw⟩ := lessAt_eq_true_iff.mp less'
    rw [getElem?_swap_of_ne upperLt.ne upperNe] at root
    by_cases isLower : other = child
    · subst other
      rw [nowChild] at held
      cases held
      have parentExcused : Excused Known heap parent := by
        apply ready.rest upper parent parentOf ne
        rw [lessAt_eq atParent root]
        exact zw
      exact keep (parentExcused.child isChild)
    · have notParent : other ≠ parent := otherOf.lt.ne'
      rw [getElem?_swap_of_ne notParent isLower] at held
      by_cases yw : less y w = true
      · have parentExcused : Excused Known heap parent := by
          apply ready.rest upper parent parentOf ne
          rw [lessAt_eq atParent root]
          exact yw
        exact keep (parentExcused.child otherOf)
      · rw [Bool.not_eq_true] at yw
        exact keep (below isLower otherOf held zw yw)

theorem settled_up (order : WeakOrder less Known) {fuel : Nat} {child : Nat} (enough : child ≤ fuel)
    (ready : UpReady less Known heap child) (limit : Nat) :
    Settled less Known limit (up less fuel heap child) := by
  fun_induction up less fuel heap child with
  | case1 heap child =>
    intro parent other isChild _ less'
    have := isChild.lt
    exact ready.rest parent other isChild (by omega) less'
  | case2 fuel heap child above stop =>
    intro parent other isChild _ less'
    by_cases isSifted : other = child
    · subst other
      rw [show above = parent from isChild.parent_eq, less'] at stop
      have := isChild.lt
      simp only [Bool.not_true, Bool.or_false, decide_eq_true_eq] at stop
      omega
    · exact ready.rest parent other isChild isSifted less'
  | case3 fuel heap child parent go ih =>
    simp only [Bool.or_eq_true, decide_eq_true_eq, Bool.not_eq_true',
      not_or, Bool.not_eq_false] at go
    have isChild : IsChild child ((child - 1) / 2) := isChild_parent (by omega)
    exact ih (by omega) (ready.move order isChild go.2)

theorem settled_push (order : WeakOrder less Known)
    (settled : Settled less Known heap.length heap) (element : α) :
    Settled less Known (push less heap element).length (push less heap element) := by
  have grown : Settled less Known heap.length (heap ++ [element]) :=
    settled.congr fun lt => (getElem?_append_left lt).symm
  have lt {other parent : Nat} (old : lessAt less (heap ++ [element]) other parent = true) :
      other < heap.length + 1 := by
    obtain ⟨x, y, held, _, _⟩ := lessAt_eq_true_iff.mp old
    simpa using (List.getElem?_eq_some_iff.mp held).1
  apply settled_up order le_rfl
  constructor
  · intro parent other isChild notNew less'
    have := lt less'
    exact grown parent other isChild (by omega) less'
  · intro parent other _ otherOf less'
    have := lt less'
    have := otherOf.lt
    omega

end SiftUp

section SiftDown

variable {less : α → α → Bool} {Known : α → Prop}

/-- What sifting down needs: heap order except below `hole`, and between the
children of `hole` and its parent. -/
structure DownReady (less : α → α → Bool) (Known : α → Prop) (limit : Nat)
    (heap : List α) (hole : Nat) : Prop where
  rest : ∀ parent other, IsChild other parent → other < limit → parent ≠ hole →
      lessAt less heap other parent = true → Excused Known heap other
  grand : ∀ parent other, IsChild hole parent → IsChild other hole → other < limit →
      lessAt less heap other parent = true → Excused Known heap other

/-- `child` is the child of `hole` that the loop picks: nothing it is
compared with comes before it. -/
structure Picked (less : α → α → Bool) (limit : Nat) (heap : List α)
    (hole child : Nat) : Prop where
  isChild : IsChild child hole
  inLimit : child < limit
  sibling : ∀ other, IsChild other hole → other < limit → other ≠ child →
    lessAt less heap other child = false
  right : child = 2 * hole + 2 → lessAt less heap (2 * hole + 2) (2 * hole + 1) = true

theorem picked_pick (order : WeakOrder less Known) (limit : Nat)
    (heap : List α) (hole : Nat) (inLimit : 2 * hole + 1 < limit) :
    Picked less limit heap hole (pick less limit heap hole) := by
  unfold pick
  simp only
  split
  · rename_i right
    simp only [Bool.and_eq_true, decide_eq_true_eq] at right
    refine ⟨Or.inr rfl, right.1, ?_, fun _ => right.2⟩
    intro other isChild otherLt ne
    have isLeft : other = 2 * hole + 1 := by
      unfold IsChild at isChild
      omega
    subst other
    obtain ⟨x, y, atRight, atLeft, xy⟩ := lessAt_eq_true_iff.mp right.2
    rw [lessAt_eq atLeft atRight]
    exact order.asymm xy
  · rename_i left
    simp only [Bool.and_eq_true, decide_eq_true_eq, not_and, Bool.not_eq_true] at left
    refine ⟨Or.inl rfl, inLimit, ?_, fun no => by omega⟩
    intro other isChild otherLt ne
    have isRight : other = 2 * hole + 1 + 1 := by
      unfold IsChild at isChild
      omega
    subst other
    exact left otherLt

variable {limit : Nat} {heap : List α} {hole : Nat}

theorem Picked.excused_hole (order : WeakOrder less Known)
    {child : Nat} (picked : Picked less limit heap hole child)
    (excused : Excused Known heap child) : Excused Known heap hole := by
  obtain ⟨parent, descends, element, held, unknown⟩ := excused
  cases descends with
  | refl =>
    have holeEq : hole = parent := by
      have := picked.isChild
      unfold IsChild at this
      omega
    subst holeEq
    obtain ⟨x, y, _, atLeft, xy⟩ := lessAt_eq_true_iff.mp (picked.right rfl)
    rw [held] at atLeft
    cases atLeft
    exact (unknown (order.known_right xy)).elim
  | child upper isChild =>
    rw [picked.isChild.parent_unique isChild]
    exact ⟨parent, upper, element, held, unknown⟩

section

variable {child : Nat} (order : WeakOrder less Known) (ready : DownReady less Known limit heap hole)
  (picked : Picked less limit heap hole child)
include order ready picked

theorem DownReady.move (old : lessAt less heap child hole = true) :
    DownReady less Known limit (swap heap hole child) child := by
  obtain ⟨x, y, atChild, atHole, xy⟩ := lessAt_eq_true_iff.mp old
  have knownX := order.known_left xy
  have knownY := order.known_right xy
  have holeLt := picked.isChild.lt
  have nowHole := getElem?_swap_first atHole atChild holeLt.ne
  have nowChild := getElem?_swap_second atHole atChild
  have keep {other : Nat} (excused : Excused Known heap other) :
      Excused Known (swap heap hole child) other := excused.swap atHole atChild knownY knownX
  constructor
  · intro parent other isChild otherLt notChild less'
    by_cases atHoleParent : parent = hole
    · subst parent
      obtain ⟨z, w, held, root, zw⟩ := lessAt_eq_true_iff.mp less'
      rw [nowHole] at root
      cases root
      by_cases isPicked : other = child
      · subst other
        rw [nowChild] at held
        cases held
        rw [order.asymm xy] at zw
        cases zw
      · rw [getElem?_swap_of_ne isChild.lt.ne' isPicked] at held
        have notBefore := picked.sibling other isChild otherLt isPicked
        rw [lessAt_eq held atChild, zw] at notBefore
        cases notBefore
    · have otherNe : other ≠ child := by
        rintro rfl
        exact atHoleParent (isChild.parent_unique picked.isChild)
      by_cases isHole : other = hole
      · subst other
        obtain ⟨z, w, held, root, zw⟩ := lessAt_eq_true_iff.mp less'
        rw [nowHole] at held
        cases held
        rw [getElem?_swap_of_ne atHoleParent notChild] at root
        apply keep
        apply picked.excused_hole order
        apply ready.grand parent child isChild picked.isChild picked.inLimit
        rw [lessAt_eq atChild root]
        exact zw
      · rw [lessAt_swap_of_ne isHole otherNe atHoleParent notChild] at less'
        exact keep (ready.rest parent other isChild otherLt atHoleParent less')
  · intro parent other childOf otherOf otherLt less'
    have parentEq : parent = hole := childOf.parent_unique picked.isChild
    subst parentEq
    obtain ⟨z, w, held, root, zw⟩ := lessAt_eq_true_iff.mp less'
    have := otherOf.lt
    rw [nowHole] at root
    cases root
    rw [getElem?_swap_of_ne (by omega) (by omega)] at held
    apply keep
    apply ready.rest child other otherOf otherLt holeLt.ne'
    rw [lessAt_eq held atChild]
    exact zw

theorem DownReady.finish (stop : lessAt less heap child hole = false) :
    Settled less Known limit heap := by
  intro parent other isChild otherLt less'
  by_cases atHole : parent = hole
  · subst parent
    obtain ⟨z, w, held, root, zw⟩ := lessAt_eq_true_iff.mp less'
    have notPicked : other ≠ child := by
      rintro rfl
      rw [stop] at less'
      cases less'
    have pickedLt : child < heap.length := by
      have := (List.getElem?_eq_some_iff.mp held).1
      by_contra ge
      have := picked.isChild
      have rightPicked : child = 2 * hole + 2 := by
        unfold IsChild at *
        omega
      obtain ⟨x, y, atRight, _, _⟩ := lessAt_eq_true_iff.mp (picked.right rightPicked)
      have := (List.getElem?_eq_some_iff.mp atRight).1
      omega
    have atChild := getElem?_eq_getElem pickedLt
    by_cases knownPicked : Known heap[child]
    · have notBefore := picked.sibling other isChild otherLt notPicked
      rw [lessAt_eq held atChild] at notBefore
      rw [lessAt_eq atChild root] at stop
      have := order.not_less_trans (order.known_left zw) knownPicked
        (order.known_right zw) notBefore stop
      rw [this] at zw
      cases zw
    · -- the picked child is the incomparable left one, so `other` is excused
      have leftPicked : child = 2 * hole + 1 := by
        by_contra notLeft
        have rightPicked : child = 2 * hole + 2 := by
          have := picked.isChild
          unfold IsChild at this
          omega
        obtain ⟨x, y, atRight, _, xy⟩ := lessAt_eq_true_iff.mp (picked.right rightPicked)
        rw [← rightPicked, atChild] at atRight
        cases atRight
        exact knownPicked (order.known_left xy)
      have isRight : other = 2 * hole + 2 := by
        unfold IsChild at isChild
        omega
      subst other
      exact ⟨hole, Descends.refl, heap[child], by rw [← leftPicked, atChild], knownPicked⟩
  · exact ready.rest parent other isChild otherLt atHole less'

end

theorem settled_down (order : WeakOrder less Known) {fuel : Nat} (enough : limit ≤ fuel + hole)
    (ready : DownReady less Known limit heap hole) :
    Settled less Known limit (down less limit fuel heap hole) := by
  have noChildren {heap : List α} {hole : Nat} (past : limit ≤ 2 * hole + 1)
      (ready : DownReady less Known limit heap hole) :
      Settled less Known limit heap := by
    intro parent other isChild otherLt less'
    apply ready.rest parent other isChild otherLt _ less'
    rintro rfl
    unfold IsChild at isChild
    omega
  fun_induction down less limit fuel heap hole with
  | case1 => exact noChildren (by omega) ready
  | case2 fuel heap hole past => exact noChildren past ready
  | case3 fuel heap hole lt child stop =>
    rw [Bool.not_eq_true'] at stop
    exact ready.finish order (picked_pick order limit heap hole (by omega)) stop
  | case4 fuel heap hole lt child go ih =>
    have picked := picked_pick order limit heap hole (by omega)
    simp only [Bool.not_eq_true', Bool.not_eq_false] at go
    have := picked.isChild.lt
    exact ih (by omega) (ready.move order picked go)

theorem settled_pop (order : WeakOrder less Known) {rest : List α}
    {top : α} (settled : Settled less Known heap.length heap)
    (popped : pop less heap = some (top, rest)) : Settled less Known rest.length rest := by
  have length : heap.length - 1 = rest.length := by simp [(perm_pop popped).length_eq]
  have ready : DownReady less Known (heap.length - 1) (swap heap 0 (heap.length - 1)) 0 := by
    constructor
    · intro parent other isChild otherLt notRoot less'
      have := isChild.lt
      rw [lessAt_swap_of_ne (by omega) (by omega) notRoot (by omega)] at less'
      obtain ⟨upper, descends, element, held, unknown⟩ :=
        settled parent other isChild (by omega) less'
      have := descends.le
      refine ⟨upper, descends, element, ?_, unknown⟩
      rw [getElem?_swap_of_ne (by omega) (by omega)]
      exact held
    · intro parent other rootOf
      have := rootOf.lt
      omega
  have sifted := settled_down order (show heap.length - 1 ≤ heap.length - 1 + 0 from le_rfl) ready
  rw [sifted_of_pop popped, length] at sifted
  exact sifted.congr getElem?_append_left

end SiftDown

section Rebuilding

variable {less : α → α → Bool} {Known : α → Prop}

def Ordered (less : α → α → Bool) (heap : List α) : Prop :=
  ∀ parent child, IsChild child parent → lessAt less heap child parent = false

variable {heap : List α}

theorem Settled.ordered (settled : Settled less Known heap.length heap)
    (allKnown : ∀ element ∈ heap, Known element) : Ordered less heap := by
  intro parent child isChild
  rw [← Bool.not_eq_true]
  intro old
  obtain ⟨x, y, held, _, _⟩ := lessAt_eq_true_iff.mp old
  obtain ⟨upper, _, element, atLeft, unknown⟩ :=
    settled parent child isChild (List.getElem?_eq_some_iff.mp held).1 old
  exact unknown (allKnown element (mem_of_getElem? atLeft))

theorem push_eq_append {element : α} (ordered : Ordered less (heap ++ [element])) :
    push less heap element = heap ++ [element] := by
  unfold push
  cases length : heap.length with
  | zero => rfl
  | succ old =>
    have notBefore := ordered (old / 2) (old + 1) (isChild_parent (by omega))
    simp [up, notBefore]

theorem foldl_push_eq (ordered : Ordered less heap) : heap.foldl (push less) [] = heap := by
  induction heap using reverseRecOn with
  | nil => rfl
  | append_singleton heap element ih =>
    have shorter : Ordered less heap := by
      intro parent child isChild
      rw [← Bool.not_eq_true]
      intro old
      obtain ⟨x, y, held, root, xy⟩ := lessAt_eq_true_iff.mp old
      have childLt := (List.getElem?_eq_some_iff.mp held).1
      have grown := ordered parent child isChild
      rw [← getElem?_append_left childLt] at held
      rw [← getElem?_append_left (isChild.lt.trans childLt)] at root
      rw [lessAt_eq held root, xy] at grown
      cases grown
    rw [foldl_append, ih shorter, foldl_cons, foldl_nil]
    exact push_eq_append ordered

end Rebuilding

section Root

variable {less : α → α → Bool} {Known : α → Prop}

theorem getElem?_down_of_le {limit i : Nat} (ge : limit ≤ i)
    (fuel : Nat) (heap : List α) {hole : Nat} (lt : hole < limit) :
    (down less limit fuel heap hole)[i]? = heap[i]? := by
  fun_induction down less limit fuel heap hole with
  | case1 | case2 | case3 => rfl
  | case4 fuel heap hole more child _ ih =>
    have chosen : pick less limit heap hole < limit := by
      fun_cases pick less limit heap hole
      · rename_i both
        rw [Bool.and_eq_true, decide_eq_true_eq] at both
        exact both.1
      · omega
    rw [ih chosen, getElem?_swap_of_ne (by omega) (by omega)]

theorem head?_of_pop {heap rest : List α} {top : α} (popped : pop less heap = some (top, rest)) :
    heap.head? = some top := by
  have lastIs : (rest ++ [top])[heap.length - 1]? = some top := by
    have length := (perm_pop popped).length_eq
    simp [show heap.length - 1 = rest.length by simp [length]]
  have pos : 0 < heap.length := by simp [(perm_pop popped).length_eq]
  rw [← sifted_of_pop popped] at lastIs
  obtain ⟨root, atRoot⟩ : ∃ root, heap[0]? = some root := ⟨_, getElem?_eq_getElem pos⟩
  obtain ⟨other, atLast⟩ : ∃ other, heap[heap.length - 1]? = some other :=
    ⟨_, getElem?_eq_getElem (by omega)⟩
  rw [head?_eq_getElem?, atRoot]
  by_cases single : heap.length - 1 = 0
  · have noStep : down less (heap.length - 1) (heap.length - 1)
        (swap heap 0 (heap.length - 1)) 0 = swap heap 0 (heap.length - 1) := by
      rw [single]
      rfl
    rwa [noStep, getElem?_swap_second atRoot atLast] at lastIs
  · rwa [getElem?_down_of_le (le_refl _) _ _ (by omega),
      getElem?_swap_second atRoot atLast] at lastIs

theorem Ordered.root_first (order : WeakOrder less Known) {heap : List α}
    (ordered : Ordered less heap) (allKnown : ∀ element ∈ heap, Known element) {root : α}
    (first : heap.head? = some root) : ∀ element ∈ heap, less element root = false := by
  rw [head?_eq_getElem?] at first
  -- the path from a position up to the root
  have above (i : Nat) : ∀ element, heap[i]? = some element → less element root = false := by
    induction i using Nat.strongRecOn with
    | ind i ih =>
      intro element held
      by_cases atRoot : i = 0
      · subst atRoot
        rw [first] at held
        cases held
        rw [← Bool.not_eq_true]
        intro old
        have after := order.asymm old
        rw [old] at after
        cases after
      · have isChild := isChild_parent (show 0 < i by omega)
        have lt := (List.getElem?_eq_some_iff.mp held).1
        have below := isChild.lt
        obtain ⟨parent, heldParent⟩ : ∃ parent, heap[(i - 1) / 2]? = some parent :=
          ⟨_, getElem?_eq_getElem (by omega)⟩
        have step := ordered _ _ isChild
        rw [lessAt_eq held heldParent] at step
        exact order.not_less_trans (allKnown _ (mem_of_getElem? held))
          (allKnown _ (mem_of_getElem? heldParent))
          (allKnown _ (mem_of_getElem? first)) step (ih _ below parent heldParent)
  intro element mem
  obtain ⟨i, held⟩ := mem_iff_getElem?.mp mem
  exact above i element held

end Root

section Draining

/-- The elements that successive pops return, `fuel` of them at most. -/
def drain (less : α → α → Bool) : Nat → List α → List α
  | 0, _ => []
  | fuel + 1, heap =>
    match pop less heap with
    | none => []
    | some (top, rest) => top :: drain less fuel rest

variable {less : α → α → Bool} {Known : α → Prop} {heap : List α}

theorem perm_drain {fuel : Nat}
    (enough : heap.length ≤ fuel) : (drain less fuel heap).Perm heap := by
  induction fuel generalizing heap with
  | zero =>
    rw [length_eq_zero_iff.mp (Nat.le_zero.mp enough)]
    exact .refl []
  | succ fuel ih =>
    unfold drain
    split
    · rename_i nothing
      rw [eq_nil_of_pop_eq_none nothing]
    · rename_i top rest popped
      have split := perm_pop popped
      have shorter := split.length_eq
      rw [length_cons] at shorter
      exact ((ih (by omega)).cons top).trans split.symm

theorem mem_of_mem_drain {fuel : Nat} {element : α}
    (mem : element ∈ drain less fuel heap) : element ∈ heap := by
  induction fuel generalizing heap with
  | zero => cases mem
  | succ fuel ih =>
    unfold drain at mem
    split at mem
    · cases mem
    · rename_i top rest popped
      rw [(perm_pop popped).mem_iff, mem_cons]
      rcases mem_cons.mp mem with eq | later
      · exact .inl eq
      · exact .inr (ih later)

theorem pairwise_drain (order : WeakOrder less Known) (fuel : Nat)
    (settled : Settled less Known heap.length heap) (allKnown : ∀ element ∈ heap, Known element) :
    (drain less fuel heap).Pairwise fun first second =>
      less second first = false := by
  induction fuel generalizing heap with
  | zero => exact .nil
  | succ fuel ih =>
    unfold drain
    split
    · exact .nil
    · rename_i top rest popped
      have split := perm_pop popped
      have restKnown : ∀ element ∈ rest, Known element := by
        intro element mem
        exact allKnown element (split.mem_iff.mpr (.tail _ mem))
      apply List.Pairwise.cons
      · intro element mem
        have inRest : element ∈ rest := mem_of_mem_drain mem
        exact (settled.ordered allKnown).root_first order allKnown
          (head?_of_pop popped) element (split.mem_iff.mpr (.tail _ inRest))
      · exact ih (settled_pop order settled popped) restKnown

def sort (less : α → α → Bool) (xs : List α) : List α :=
  drain less xs.length (xs.foldl (push less) [])

theorem perm_foldl_push (xs heap : List α) : (xs.foldl (push less) heap).Perm (xs ++ heap) := by
  induction xs generalizing heap with
  | nil => exact .refl heap
  | cons x xs ih =>
    rw [foldl_cons, cons_append]
    exact ((ih _).trans ((perm_push less heap x).append_left xs)).trans perm_middle

theorem settled_foldl_push (order : WeakOrder less Known) (xs : List α)
    (settled : Settled less Known heap.length heap) :
    Settled less Known (xs.foldl (push less) heap).length (xs.foldl (push less) heap) := by
  induction xs generalizing heap with
  | nil => exact settled
  | cons x xs ih => exact ih (settled_push order settled x)

end Draining

end BinaryHeap
