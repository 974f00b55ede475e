import JitTrace.Proofs.SplayTree.FreeList
import Mathlib.Data.List.Nodup

/-!
# The thread of a splay tree

The thread links the nodes in key order, once towards either side. `Leads` says
which nodes following it passes through; a thread is changed at one link at a time,
which redirects what is behind that link and keeps what is before it.
-/

namespace JitTrace

namespace Side

/-- A list from left to right, read towards a side. -/
def orient {α : Type} (side : Side) (items : List α) : List α :=
  match side with
  | .left => items.reverse
  | .right => items

@[simp] theorem mem_orient {α : Type} {side : Side} {items : List α} {item : α} :
    item ∈ side.orient items ↔ item ∈ items := by
  cases side <;> simp [orient]

@[simp] theorem nodup_orient {α : Type} {side : Side} {items : List α} :
    (side.orient items).Nodup ↔ items.Nodup := by
  cases side <;> simp [orient, List.nodup_reverse]

@[simp] theorem length_orient {α : Type} (side : Side) (items : List α) :
    (side.orient items).length = items.length := by
  cases side <;> simp [orient]

@[simp] theorem orient_nil {α : Type} (side : Side) : side.orient ([] : List α) = [] := by
  cases side <;> rfl

@[simp] theorem orient_singleton {α : Type} (side : Side) (item : α) :
    side.orient [item] = [item] := by
  cases side <;> rfl

/-- What is joined on a side comes last towards that side. -/
theorem orient_join {α : Type} (side : Side) (near rest : List α) :
    side.orient (side.join near rest) = side.orient rest ++ side.orient near := by
  cases side <;> simp [orient, join]

/-- What is joined on a side comes first away from that side. -/
theorem orient_opposite_join {α : Type} (side : Side) (near rest : List α) :
    side.opposite.orient (side.join near rest) =
      side.opposite.orient near ++ side.opposite.orient rest := by
  cases side <;> simp [orient, join, opposite]

/-- The last item towards one side is the first towards the other. -/
theorem getLast?_orient_opposite {α : Type} (side : Side) (items : List α) :
    (side.opposite.orient items).getLast? = (side.orient items).head? := by
  cases side <;> simp [orient, opposite]

end Side

/-- Following `step` from `start` passes through exactly these handles, up to `stop`. -/
def Leads (step : Handle → Option Handle) : Option Handle → List Handle → Option Handle → Prop
  | start, [], stop => start = stop
  | start, handle :: handles, stop => start = some handle ∧ Leads step (step handle) handles stop

namespace Leads

variable {step : Handle → Option Handle} {start stop : Option Handle} {handles : List Handle}

@[simp] theorem nil_iff : Leads step start [] stop ↔ start = stop := Iff.rfl

theorem cons_iff {handle : Handle} :
    Leads step start (handle :: handles) stop ↔
      start = some handle ∧ Leads step (step handle) handles stop := Iff.rfl

/-- A thread is followed piece by piece. -/
theorem append_iff {more : List Handle} :
    Leads step start (handles ++ more) stop ↔
      ∃ middle, Leads step start handles middle ∧ Leads step middle more stop := by
  induction handles generalizing start with
  | nil => simp
  | cons handle handles inductionHypothesis => simp [cons_iff, inductionHypothesis, and_assoc]

/-- A thread depends only on the links of the nodes it passes through. -/
theorem congr {other : Handle → Option Handle} (leads : Leads step start handles stop)
    (agree : ∀ handle ∈ handles, other handle = step handle) :
    Leads other start handles stop := by
  induction handles generalizing start with
  | nil => exact leads
  | cons handle handles inductionHypothesis =>
    refine ⟨leads.1, ?_⟩
    rw [agree handle (by simp)]
    exact inductionHypothesis leads.2 fun below inside => agree below (by simp [inside])

/-- A thread begins at its first node, or else at its end. -/
theorem start_eq (leads : Leads step start handles stop) : start = handles.head?.or stop := by
  cases handles with
  | nil => exact leads
  | cons handle handles => exact leads.1

end Leads

namespace SplayTree

variable {Key Value : Type} {tree : SplayTree Key Value}

@[simp] theorem slot?_withEntrance (tree : SplayTree Key Value) (side : Side)
    (link : Option Handle) : (tree.withEntrance side link).slot? = tree.slot? := by
  funext handle
  cases side <;> rfl

@[simp] theorem entrance_withEntrance (tree : SplayTree Key Value) (side : Side)
    (link : Option Handle) (other : Side) :
    (tree.withEntrance side link).entrance other =
      if other = side then link else tree.entrance other := by
  cases side <;> cases other <;> rfl

/-- The second tree differs from the first in its thread at most. -/
structure SameNodes (before after : SplayTree Key Value) : Prop where
  child? : after.child? = before.child?
  pair? : after.pair? = before.pair?
  live : ∀ handle, (after.slot? handle).isSome = (before.slot? handle).isSome
  root : after.root = before.root
  size : after.size = before.size
  free : after.free = before.free
  slots_size : after.slots.size = before.slots.size

theorem SameNodes.trans {before middle after : SplayTree Key Value}
    (first : SameNodes before middle) (second : SameNodes middle after) :
    SameNodes before after where
  child? := second.child?.trans first.child?
  pair? := second.pair?.trans first.pair?
  live handle := (second.live handle).trans (first.live handle)
  root := second.root.trans first.root
  size := second.size.trans first.size
  free := second.free.trans first.free
  slots_size := second.slots_size.trans first.slots_size

/-- The second tree differs from the first in its thread towards one side at most. -/
structure Rethreaded (side : Side) (before after : SplayTree Key Value) : Prop
    extends SameNodes before after where
  beside_opposite : after.beside? side.opposite = before.beside? side.opposite
  entrance_opposite : after.entrance side.opposite = before.entrance side.opposite

/-- Changing the link behind the last node of a thread, or its entrance, redirects
the thread and changes nothing else. -/
theorem exists_tryThread {side : Side} {handles : List Handle} {stop : Option Handle}
    (leads : Leads (tree.beside? side) (tree.entrance side) handles stop)
    (distinct : handles.Nodup) (live : ∀ handle ∈ handles, (tree.slot? handle).isSome)
    (target : Option Handle) :
    ∃ threaded, tree.tryThread side handles.getLast? target = some threaded ∧
      Rethreaded side tree threaded ∧
      Leads (threaded.beside? side) (threaded.entrance side) handles target ∧
      ∀ handle ∉ handles, threaded.beside? side handle = tree.beside? side handle := by
  rcases handles.eq_nil_or_concat' with rfl | ⟨before, last, rfl⟩
  · refine ⟨tree.withEntrance side target, rfl, ⟨?_, ?_, ?_⟩, by simp, ?_⟩
    · constructor <;> first | rfl | (cases side <;> rfl) | (intros; simp)
    · cases side <;> rfl
    · cases side <;> rfl
    · intro handle _
      simp [beside?]
  · have lastLive := live last (by simp)
    obtain ⟨slot, found⟩ := Option.isSome_iff_exists.mp lastLive
    have elsewhere : ∀ handle, handle ≠ last →
        (tree.modifySlot last (·.withNeighbour side target)).beside? side handle =
          tree.beside? side handle := by
      intro handle different
      simp [beside?, different]
    refine ⟨tree.modifySlot last (·.withNeighbour side target), ?_, ?_, ?_, ?_⟩
    · simp [tryThread, tryModify_of_live lastLive]
    · refine ⟨⟨?_, ?_, ?_, rfl, rfl, rfl, ?_⟩, ?_, ?_⟩
      · funext other handle
        by_cases same : handle = last <;> simp [child?, same, found]
      · funext handle
        by_cases same : handle = last <;> simp [pair?, same, found]
      · intro handle
        by_cases same : handle = last <;> simp [same]
      · simp [modifySlot]
      · funext handle
        by_cases same : handle = last <;> simp [beside?, same, found]
      · simp
    · obtain ⟨middle, onBefore, onLast⟩ := Leads.append_iff.mp leads
      refine Leads.append_iff.mpr ⟨middle, ?_, ?_⟩
      · rw [entrance_modifySlot]
        refine onBefore.congr fun handle inside => elsewhere handle ?_
        rintro rfl
        simp [List.nodup_append] at distinct
        exact distinct.2 handle inside rfl
      · exact ⟨onLast.1, by simp [beside?, found]⟩
    · intro handle outside
      exact elsewhere handle fun same => outside (by simp [same])

/-- Letting the thread go on behind a node as it does behind the next bypasses that
one. -/
theorem exists_bypass {side : Side} {handles rest : List Handle} {handle : Handle}
    (leads : Leads (tree.beside? side) (tree.entrance side) (handles ++ handle :: rest) none)
    (distinct : (handles ++ handle :: rest).Nodup)
    (live : ∀ handle ∈ handles, (tree.slot? handle).isSome) :
    ∃ threaded, tree.tryThread side handles.getLast? (tree.beside? side handle) = some threaded ∧
      Rethreaded side tree threaded ∧
      Leads (threaded.beside? side) (threaded.entrance side) (handles ++ rest) none := by
  obtain ⟨middle, before, -, after⟩ := Leads.append_iff.mp leads
  obtain ⟨handlesDistinct, -, apart⟩ := List.nodup_append.mp distinct
  obtain ⟨threaded, threads, same, redirected, untouched⟩ :=
    exists_tryThread before handlesDistinct live (tree.beside? side handle)
  refine ⟨threaded, threads, same, Leads.append_iff.mpr ⟨_, redirected, ?_⟩⟩
  exact after.congr fun other inside => untouched other fun inHandles =>
    apart other inHandles other (by simp [inside]) rfl

end SplayTree

end JitTrace
