import DalvikLinkage.Proofs.Body.Positions

/-!
# Editing in place

The operations on arenas, cursors and method bodies give a new value or an error, so what a refused
one leaves behind is not to be seen. Here they are taken step by step on a state that is changed in
place: an operation that stops half-way leaves what its steps have done by then. It also stops where
it needs an item, a location or an instruction that is not there.

None of this happens. An operation that can be refused after its first change is not refused then,
since by placement the item that it attaches is nowhere, and whatever it needs is there; so in place
or not, the operations come to the same.

Results:
* `InPlace.run_attach`, `InPlace.run_detach`, `InPlace.run_merge`: the arena;
* `Walk.agrees`: a cursor and the arena that it walks on;
* `InPlace.run_insert`, `InPlace.run_replace`, `InPlace.run_remove`, `InPlace.run_addItem`,
  `InPlace.run_moveItem`, `InPlace.run_cursor`: the method body.
-/
namespace DalvikLinkage.Body

/-- Why an operation stops: it is refused, or what it needs is not there. -/
inductive Stop
  | refused (error : EditError)
  | missing
  deriving DecidableEq

/-- An operation on a state that is changed in place. If it stops, the state is what the steps
before have made of it. -/
abbrev InPlace (σ α : Type) : Type :=
  EStateM Stop σ α

namespace InPlace

section Steps

variable {σ τ α β : Type}

/-- Stops with an error. -/
def refuse (error : EditError) : InPlace σ α :=
  throw (.refused error)

/-- What has to be there. -/
def need : Option α → InPlace σ α
  | some a => pure a
  | none => throw .missing

/-- Works on a part of the state. -/
def on (part : σ → τ) (put : σ → τ → σ) (op : InPlace τ α) : InPlace σ α := fun s =>
  match op.run (part s) with
  | .ok a t => .ok a (put s t)
  | .error stop t => .error stop (put s t)

/-- The outcome of an operation that gives a new state, or leaves the old one if it is refused. -/
def orRefused (s : σ) (f : β → α × σ) : Except EditError β → EStateM.Result Stop σ α
  | .ok b => .ok (f b).1 (f b).2
  | .error error => .error (.refused error) s

variable {op : InPlace σ α} {next : α → InPlace σ β} {s s' : σ} {a : α} {stop : Stop}

theorem run_bind_of_ok (h : op.run s = .ok a s') : (op >>= next).run s = (next a).run s' := by
  rw [EStateM.run] at h
  simp only [EStateM.run, bind, EStateM.bind, h]

theorem run_bind_of_error (h : op.run s = .error stop s') :
    (op >>= next).run s = .error stop s' := by
  rw [EStateM.run] at h
  simp only [EStateM.run, bind, EStateM.bind, h]

@[simp] theorem run_get_bind {next : σ → InPlace σ β} :
    (get >>= next).run s = (next s).run s := rfl

@[simp] theorem run_modify_bind {f : σ → σ} {next : PUnit → InPlace σ β} :
    (modify f >>= next).run s = (next ()).run (f s) := rfl

theorem run_need_bind {o : Option α} (h : o = some a) :
    (need o >>= next).run s = (next a).run s := by
  rw [h]
  rfl

variable {part : σ → τ} {put : σ → τ → σ} {inner : InPlace τ α} {t : τ}

theorem run_on_of_ok (h : inner.run (part s) = .ok a t) :
    (on part put inner).run s = .ok a (put s t) := by
  simp only [EStateM.run, on] at h ⊢
  rw [h]

theorem run_on_of_error (h : inner.run (part s) = .error stop t) :
    (on part put inner).run s = .error stop (put s t) := by
  simp only [EStateM.run, on] at h ⊢
  rw [h]

end Steps

/-! ## Arenas -/

section Arena

variable {α : Type}

def newLocation (index : Nat) : InPlace (Arena α) LocationId := fun a =>
  .ok (a.newLocation index).1 (a.newLocation index).2

def newItem (value : α) : InPlace (Arena α) ItemId := fun a =>
  .ok (a.newItem value).1 (a.newItem value).2

/-- Puts an item that is nowhere at the end of a location's items. -/
def attach (i : ItemId) (l : LocationId) : InPlace (Arena α) Unit := do
  let placed ← need (← get).items[i.number]?
  match placed.location with
  | some current => refuse (.alreadyPlaced i current l)
  | none =>
    modify (·.setLocation i (some l))
    let slot ← need (← get).locations[l.number]?
    modify (·.setItems l (some (slot.items.getD [] ++ [i])))

/-- Takes an item away from where it is, and says where that was. -/
def detach (i : ItemId) : InPlace (Arena α) (Option LocationId) := do
  let placed ← need (← get).items[i.number]?
  match placed.location with
  | none => return none
  | some l =>
    modify (·.setLocation i none)
    let slot ← need (← get).locations[l.number]?
    modify (·.setItems l (slot.items.map (·.erase i)))
    return some l

/-- Points items to a location, one after the other. -/
def point (target : LocationId) : List ItemId → InPlace (Arena α) Unit
  | [] => pure ()
  | i :: rest => do
    let _ ← need (← get).items[i.number]?
    modify (·.setLocation i (some target))
    point target rest

/-- Moves all items of `source` to `target`, ahead of the items there. The list of the source is
taken first. -/
def merge (source target : LocationId) : InPlace (Arena α) Unit := do
  if source = target then
    return ()
  else
    let slot ← need (← get).locations[source.number]?
    match slot.items with
    | none => return ()
    | some moved =>
      modify (·.setItems source none)
      point target moved
      let slot ← need (← get).locations[target.number]?
      modify (·.setItems target (some (moved ++ slot.items.getD [])))

variable {a : Arena α} {i : ItemId} {l source target : LocationId}

theorem exists_item (h : a.HasItem i) :
    ∃ placed, a.items[i.number]? = some placed ∧ a.locationOf? i = placed.location := by
  have hget : a.items[i.number]? = some a.items[i.number] := List.getElem?_eq_getElem h
  exact ⟨_, hget, by rw [Arena.locationOf?, hget]; rfl⟩

theorem exists_slot (h : a.HasLocation l) :
    ∃ slot, a.locations[l.number]? = some slot ∧ a.itemsAt l = slot.items.getD [] := by
  have hget : a.locations[l.number]? = some a.locations[l.number] := List.getElem?_eq_getElem h
  exact ⟨_, hget, by rw [Arena.itemsAt, hget]; rfl⟩

theorem run_attach (hi : a.HasItem i) (hl : a.HasLocation l) :
    (attach i l).run a = orRefused a (fun a => ((), a)) (a.attach i l) := by
  obtain ⟨placed, hplaced, hlocation⟩ := exists_item hi
  unfold attach Arena.attach
  rw [run_get_bind, run_need_bind hplaced, hlocation]
  cases placed.location with
  | some current => rfl
  | none =>
    obtain ⟨slot, hslot, hitems⟩ := exists_slot hl
    have hslot' : (a.setLocation i (some l)).locations[l.number]? = some slot := hslot
    rw [hitems]
    dsimp only
    rw [run_modify_bind, run_get_bind, run_need_bind hslot']
    rfl

/-- An item that is nowhere is attached. -/
theorem run_attach_of_nowhere (hi : a.HasItem i) (hl : a.HasLocation l)
    (h : a.locationOf? i = none) :
    ∃ a', a.attach i l = .ok a' ∧ (attach i l).run a = .ok () a' := by
  obtain ⟨a', ha⟩ := Arena.exists_attach_eq_ok h l
  exact ⟨a', ha, by rw [run_attach hi hl, ha]; rfl⟩

theorem run_detach (h : a.Consistent) (hi : a.HasItem i) :
    (detach i).run a = .ok (a.detach i).1 (a.detach i).2 := by
  obtain ⟨placed, hplaced, hlocation⟩ := exists_item hi
  unfold detach Arena.detach
  rw [run_get_bind, run_need_bind hplaced, hlocation]
  cases hl : placed.location with
  | none => rfl
  | some l =>
    obtain ⟨slot, hslot, -⟩ := exists_slot (h.hasLocation (hlocation.trans hl))
    have hslot' : (a.setLocation i none).locations[l.number]? = some slot := hslot
    dsimp only
    rw [run_modify_bind, run_get_bind, run_need_bind hslot', hslot]
    rfl

theorem run_point (moved : List ItemId) (h : ∀ i ∈ moved, a.HasItem i) :
    (point target moved).run a =
      .ok () (moved.foldl (fun a i => a.setLocation i (some target)) a) := by
  induction moved generalizing a with
  | nil => rfl
  | cons i rest ih =>
    obtain ⟨placed, hplaced, -⟩ := exists_item (h i List.mem_cons_self)
    unfold point
    rw [run_get_bind, run_need_bind hplaced, run_modify_bind]
    refine ih fun j hj => Arena.hasItem_iff.2 ?_
    rw [Arena.values_setLocation]
    exact Arena.hasItem_iff.1 (h j (List.mem_cons_of_mem i hj))

theorem foldl_setLocation_setItems (moved : List ItemId) (items : Option (List ItemId)) :
    moved.foldl (fun a i => a.setLocation i (some target)) (a.setItems source items) =
      (moved.foldl (fun a i => a.setLocation i (some target)) a).setItems source items := by
  induction moved generalizing a with
  | nil => rfl
  | cons i rest ih => exact ih (a := a.setLocation i (some target))

/-- Which of the two lists is changed first makes no difference, and neither does it that the items
know where they go before their list does. -/
theorem run_merge (h : a.Consistent) (hs : a.HasLocation source) (ht : a.HasLocation target) :
    (merge source target).run a = .ok () (a.merge source target) := by
  unfold merge Arena.merge
  split
  · rfl
  next hne =>
    obtain ⟨slot, hslot, hitems⟩ := exists_slot hs
    rw [run_get_bind, run_need_bind hslot, hslot, Option.bind_some]
    cases hmoved : slot.items with
    | none => rfl
    | some moved =>
      rw [hmoved, Option.getD_some] at hitems
      have hitem : ∀ i ∈ moved, a.HasItem i := fun i hi => h.hasItem (hitems ▸ hi)
      have hpoint : (point target moved).run (a.setItems source none) = _ := run_point moved hitem
      obtain ⟨hkeep, hlists, -⟩ := Arena.foldl_setLocation (t := target) moved hitem
      rw [foldl_setLocation_setItems] at hpoint
      dsimp only
      generalize moved.foldl (fun a i => a.setLocation i (some target)) a = b
        at hpoint hkeep hlists ⊢
      have hb : b.HasLocation source := hkeep.hasLocation.2 hs
      have htarget : (b.setItems source none).itemsAt target = a.itemsAt target := by
        rw [Arena.itemsAt_setItems hb, if_neg (Ne.symm hne), hlists]
      obtain ⟨slot', hslot', hitems'⟩ := exists_slot (a := b.setItems source none) (l := target)
        (by simpa [Arena.hasLocation_iff] using hkeep.hasLocation.2 ht)
      rw [run_modify_bind, run_bind_of_ok hpoint, run_get_bind, run_need_bind hslot', ← hitems',
        htarget]
      rfl

end Arena

/-! ## Method bodies -/

/-- Gives the locations of `ls` the indices from `first` on. -/
def reindex (first : Nat) : List LocationId → InPlace (Arena Item) Unit
  | [] => pure ()
  | l :: rest => do
    let _ ← need (← get).locations[l.number]?
    modify (·.setIndex l first)
    reindex (first + 1) rest

def onArena {α : Type} (op : InPlace (Arena Item) α) : InPlace MethodBody α :=
  on MethodBody.arena (fun b arena => { b with arena }) op

/-- The location of instruction `index`; the end for the index after the last one. -/
def location (index : Nat) : InPlace MethodBody LocationId := do
  let b ← get
  match b.positions[index]? with
  | some l => return l
  | none => refuse (.indexOutOfRange index b.length)

/-- Gives the positions from `first` on their indices. -/
def reindexFrom (first : Nat) : InPlace MethodBody Unit := do
  let b ← get
  onArena (reindex first (b.positions.drop first))

def push (x : Instruction) : InPlace MethodBody Unit := do
  modify fun b => { b with instructions := b.instructions ++ [x] }
  let stop ← onArena (newLocation (← get).length)
  modify fun b => { b with positions := b.positions ++ [stop] }

/-- Puts an instruction before instruction `index`, or at the end. -/
def insert (index : Nat) (x : Instruction) : InPlace MethodBody Unit := do
  let b ← get
  if b.length < index then
    refuse (.indexOutOfRange index b.length)
  else if index = b.length then
    push x
  else
    let l ← onArena (newLocation index)
    modify fun b => { b with instructions := b.instructions.insertIdx index x }
    modify fun b => { b with positions := b.positions.insertIdx index l }
    reindexFrom (index + 1)

/-- Puts an instruction in the place of instruction `index`, which is given back. -/
def replace (index : Nat) (x : Instruction) : InPlace MethodBody Instruction := do
  let b ← get
  match b.instructions[index]? with
  | none => refuse (.indexOutOfRange index b.length)
  | some old =>
    modify fun b => { b with instructions := b.instructions.set index x }
    return old

/-- Takes instruction `index` out, position first. Its items move to the location that comes to
stand there. -/
def remove (index : Nat) : InPlace MethodBody Instruction := do
  let b ← get
  if b.length ≤ index then
    refuse (.indexOutOfRange index b.length)
  else
    let removed ← need (← get).positions[index]?
    modify fun b => { b with positions := b.positions.eraseIdx index }
    let old ← need (← get).instructions[index]?
    modify fun b => { b with instructions := b.instructions.eraseIdx index }
    let next ← need (← get).positions[index]?
    onArena (merge removed next)
    reindexFrom index
    return old

/-- Anchors a new item to instruction `index`, after the items there. -/
def addItem (index : Nat) (item : Item) : InPlace MethodBody ItemId := do
  let l ← location index
  let i ← onArena (newItem item)
  onArena (attach i l)
  return i

/-- Moves an item to instruction `index`, after the items there. -/
def moveItem (i : ItemId) (index : Nat) : InPlace MethodBody Unit := do
  let l ← location index
  let _ ← onArena (detach i)
  onArena (attach i l)

/-- A cursor over the items of instruction `index`. -/
def cursor (index : Nat) : InPlace MethodBody Cursor := do
  return { location := ← location index }

section Body

variable {α : Type} {b : MethodBody} {arena : Arena Item} {k : Nat} {i : ItemId} {x : Instruction}

theorem run_onArena_of_ok {op : InPlace (Arena Item) α} {value : α}
    (h : op.run b.arena = .ok value arena) :
    (onArena op).run b = .ok value { b with arena } :=
  run_on_of_ok h

theorem run_onArena_bind {β : Type} {op : InPlace (Arena Item) α} {next : α → InPlace MethodBody β}
    {value : α} (h : op.run b.arena = .ok value arena) :
    (onArena op >>= next).run b = (next value).run { b with arena } :=
  run_bind_of_ok (run_onArena_of_ok h)

theorem run_location (b : MethodBody) (k : Nat) :
    (location k).run b = orRefused b (fun l => (l, b)) (b.location k) := by
  unfold location MethodBody.location
  rw [run_get_bind]
  cases b.positions[k]? <;> rfl

theorem run_reindex (first : Nat) (ls : List LocationId) (h : ∀ l ∈ ls, arena.HasLocation l) :
    (reindex first ls).run arena = .ok () (MethodBody.reindex arena first ls) := by
  induction ls generalizing arena first with
  | nil => rfl
  | cons l rest ih =>
    obtain ⟨slot, hslot, -⟩ := exists_slot (h l List.mem_cons_self)
    unfold reindex MethodBody.reindex
    rw [run_get_bind, run_need_bind hslot, run_modify_bind]
    refine ih (first + 1) fun m hm => ?_
    simpa [Arena.hasLocation_iff] using h m (List.mem_cons_of_mem l hm)

theorem run_reindexFrom (first : Nat) (h : ∀ l ∈ b.positions, b.arena.HasLocation l) :
    (reindexFrom first).run b =
      .ok () { b with arena := MethodBody.reindex b.arena first (b.positions.drop first) } :=
  run_onArena_of_ok (run_reindex first _ fun l hl => h l (List.mem_of_mem_drop hl))

theorem run_push (b : MethodBody) (x : Instruction) : (push x).run b = .ok () (b.push x) := rfl

theorem run_insert (h : b.WellPlaced) (k : Nat) (x : Instruction) :
    (insert k x).run b = orRefused b (fun b => ((), b)) (b.insert k x) := by
  unfold insert MethodBody.insert
  rw [run_get_bind]
  by_cases hlt : b.length < k
  · rw [if_pos hlt, if_pos hlt]
    rfl
  rw [if_neg hlt, if_neg hlt]
  by_cases heq : k = b.length
  · rw [if_pos heq, if_pos heq]
    exact run_push b x
  rw [if_neg heq, if_neg heq]
  have hlocations : ∀ l ∈ b.positions.insertIdx k (b.arena.newLocation k).1,
      (b.arena.newLocation k).2.HasLocation l := by
    intro l hl
    obtain rfl | hl := (List.mem_insertIdx (by rw [h.length_positions]; omega)).1 hl
    · exact Arena.hasLocation_of_index? MethodBody.index?_newLocation_self
    · exact (h.hasLocation hl).newLocation k
  have hnew : (newLocation k).run b.arena =
      .ok (b.arena.newLocation k).1 (b.arena.newLocation k).2 := rfl
  refine (run_onArena_bind hnew).trans ?_
  rw [run_modify_bind, run_modify_bind]
  exact run_reindexFrom (k + 1) hlocations

theorem run_replace (b : MethodBody) (k : Nat) (x : Instruction) :
    (replace k x).run b = orRefused b id (b.replace k x) := by
  unfold replace MethodBody.replace
  rw [run_get_bind]
  cases b.instructions[k]? <;> rfl

theorem run_remove (h : b.WellPlaced) (k : Nat) :
    (remove k).run b = orRefused b id (b.remove k) := by
  unfold remove
  rw [run_get_bind]
  rcases MethodBody.remove_cases h k with ⟨hk, he⟩ | ⟨old, pre, s, t, suf, hk, hold, hp, hpre, he⟩
  · rw [if_pos hk, he]
    rfl
  rw [if_neg (Nat.not_le.2 hk), he]
  have hs : b.positions[k]? = some s := by simp [hp, ← hpre]
  have herase : b.positions.eraseIdx k = pre ++ t :: suf := by
    rw [hp, ← hpre, MethodBody.eraseIdx_append_length]
  have hdrop : (pre ++ t :: suf).drop k = t :: suf := by rw [← hpre, List.drop_left]
  have ht : (b.positions.eraseIdx k)[k]? = some t := by
    rw [herase, ← hpre]
    simp
  have hlocation : ∀ l ∈ b.positions, b.arena.HasLocation l := fun l => h.hasLocation
  have hmerge : (merge s t).run b.arena = .ok () (b.arena.merge s t) :=
    run_merge h.consistent (hlocation s (by simp [hp])) (hlocation t (by simp [hp]))
  have hmerged : ∀ l ∈ b.positions.eraseIdx k, (b.arena.merge s t).HasLocation l := fun l hl =>
    (h.merge_folds hp).2.hasLocation.2 (hlocation l (List.mem_of_mem_eraseIdx hl))
  rw [run_get_bind, run_need_bind hs, run_modify_bind, run_get_bind, run_need_bind hold,
    run_modify_bind, run_get_bind, run_need_bind ht]
  let cut : MethodBody := { b with
    instructions := b.instructions.eraseIdx k, positions := b.positions.eraseIdx k }
  refine (run_onArena_bind (b := cut) hmerge).trans ?_
  refine (run_bind_of_ok (run_reindexFrom (b := { cut with arena := b.arena.merge s t }) k
    hmerged)).trans ?_
  simp only [cut, herase, hdrop]
  rfl

/-- The item is new, so it is nowhere and can be attached. -/
theorem run_addItem (h : b.WellPlaced) (k : Nat) (v : Item) :
    (addItem k v).run b = orRefused b id (b.addItem k v) := by
  unfold addItem MethodBody.addItem
  have hlocate := run_location b k
  rcases h.location_cases k with ⟨-, he⟩ | ⟨l, -, hl, he⟩ <;> rw [he] at hlocate ⊢
  · exact run_bind_of_error hlocate
  obtain ⟨arena, ha, hattach⟩ := run_attach_of_nowhere (a := (b.arena.newItem v).2) (l := l)
    (i := (b.arena.newItem v).1) (by simp [Arena.HasItem, Arena.newItem])
    (h.hasLocation (List.mem_of_getElem? hl)) (MethodBody.locationOf?_newItem_self v)
  dsimp only
  rw [ha]
  refine (run_bind_of_ok hlocate).trans ?_
  have hnew : (newItem v).run b.arena = .ok (b.arena.newItem v).1 (b.arena.newItem v).2 := rfl
  refine (run_onArena_bind hnew).trans ?_
  exact run_onArena_bind hattach

/-- The item was taken from where it was, so it is nowhere and can be attached. -/
theorem run_moveItem (h : b.WellPlaced) (hi : b.arena.HasItem i) (k : Nat) :
    (moveItem i k).run b = orRefused b (fun b => ((), b)) (b.moveItem i k) := by
  unfold moveItem MethodBody.moveItem
  have hlocate := run_location b k
  rcases h.location_cases k with ⟨-, he⟩ | ⟨l, -, hl, he⟩ <;> rw [he] at hlocate ⊢
  · exact run_bind_of_error hlocate
  have ht := Arena.detach_takes (i := i) h.consistent
  obtain ⟨arena, ha, hattach⟩ := run_attach_of_nowhere (a := (b.arena.detach i).2) (i := i)
    (ht.hasItem.2 hi) (ht.hasLocation.2 (h.hasLocation (List.mem_of_getElem? hl)))
    (by rw [ht.locationOf?, if_pos rfl])
  dsimp only
  rw [ha]
  refine (run_bind_of_ok hlocate).trans ?_
  refine (run_onArena_bind (run_detach h.consistent hi)).trans ?_
  exact run_onArena_of_ok hattach

theorem run_cursor (b : MethodBody) (k : Nat) :
    (cursor k).run b = orRefused b (fun c => (c, b)) (b.cursor k) := by
  unfold cursor MethodBody.cursor
  have hlocate := run_location b k
  cases he : b.location k with
  | error e =>
    rw [he] at hlocate
    exact run_bind_of_error hlocate
  | ok l =>
    rw [he] at hlocate
    exact run_bind_of_ok hlocate

end Body

end InPlace

/-! ## Cursors -/

/-- A cursor and the arena that it walks on. -/
structure Walk (α : Type) where
  cursor : Cursor
  arena : Arena α
  deriving DecidableEq

namespace Walk

open InPlace

variable {α : Type}

/-- The next item, if there is one. -/
def next : InPlace (Walk α) (Option ItemId) := do
  let w ← get
  let slot ← need w.arena.locations[w.cursor.location.number]?
  match (slot.items.getD [])[w.cursor.next]? with
  | none => return none
  | some i =>
    modify fun w => { w with
      cursor := { w.cursor with next := w.cursor.next + 1, last := some w.cursor.next } }
    return some i

/-- Takes the item that the cursor has just come past away from the location. -/
def remove : InPlace (Walk α) ItemId := do
  match (← get).cursor.last with
  | none => refuse .noCurrentItem
  | some position =>
    modify fun w => { w with cursor := { w.cursor with last := none } }
    let w ← get
    let slot ← need w.arena.locations[w.cursor.location.number]?
    let items := slot.items.getD []
    match items[position]? with
    | none => refuse .noCurrentItem
    | some i =>
      modify fun w => { w with
        arena := w.arena.setItems w.cursor.location (some (items.eraseIdx position)) }
      let _ ← need (← get).arena.items[i.number]?
      modify fun w => { w with arena := w.arena.setLocation i none }
      modify fun w => { w with cursor := { w.cursor with next := position } }
      return i

/-- Puts an item that is nowhere at the end of the location's items. -/
def add (i : ItemId) : InPlace (Walk α) Unit := do
  let w ← get
  on Walk.arena (fun w arena => { w with arena }) (attach i w.cursor.location)
  modify fun w => { w with cursor := { w.cursor with last := none } }

variable {w : Walk α} {i : ItemId}

theorem run_next (h : w.arena.HasLocation w.cursor.location) :
    next.run w = .ok (w.cursor.advance w.arena).1
      { w with cursor := (w.cursor.advance w.arena).2 } := by
  obtain ⟨slot, hslot, hitems⟩ := exists_slot h
  unfold next Cursor.advance
  rw [run_get_bind, run_need_bind hslot, ← hitems]
  cases (w.arena.itemsAt w.cursor.location)[w.cursor.next]? <;> rfl

theorem run_remove (hc : w.arena.Consistent) (h : w.arena.HasLocation w.cursor.location) :
    remove.run w =
      match w.cursor.remove w.arena with
      | (.ok i, cursor, arena) => .ok i { cursor, arena }
      | (.error e, cursor, arena) => .error (.refused e) { cursor, arena } := by
  obtain ⟨slot, hslot, hitems⟩ := exists_slot h
  unfold remove Cursor.remove
  rw [run_get_bind]
  cases w.cursor.last with
  | none => rfl
  | some position =>
    dsimp only
    rw [run_modify_bind, run_get_bind, run_need_bind hslot, ← hitems]
    cases hi : (w.arena.itemsAt w.cursor.location)[position]? with
    | none => rfl
    | some i =>
      obtain ⟨placed, hplaced, -⟩ := exists_item (hc.hasItem (List.mem_of_getElem? hi))
      dsimp only
      rw [run_modify_bind, run_get_bind]
      refine (run_need_bind hplaced).trans ?_
      rfl

theorem run_add (hi : w.arena.HasItem i) (h : w.arena.HasLocation w.cursor.location) :
    (add i).run w = orRefused w (fun r => ((), ⟨r.1, r.2⟩)) (w.cursor.add w.arena i) := by
  have hattach := run_attach hi h
  unfold add Cursor.add
  rw [run_get_bind]
  cases ha : w.arena.attach i w.cursor.location with
  | error e =>
    rw [ha] at hattach
    exact run_bind_of_error (run_on_of_error hattach)
  | ok arena =>
    rw [ha] at hattach
    exact run_bind_of_ok (run_on_of_ok hattach)

/-- The moves of a cursor in place come to the same as those that give a new cursor and arena. -/
structure Agrees (w : Walk α) : Prop where
  next : Walk.next.run w = .ok (w.cursor.advance w.arena).1
    { w with cursor := (w.cursor.advance w.arena).2 }
  remove : Walk.remove.run w =
    match w.cursor.remove w.arena with
    | (.ok i, cursor, arena) => .ok i { cursor, arena }
    | (.error e, cursor, arena) => .error (.refused e) { cursor, arena }
  add : ∀ i, w.arena.HasItem i →
    (Walk.add i).run w = orRefused w (fun r => ((), ⟨r.1, r.2⟩)) (w.cursor.add w.arena i)

theorem agrees (hc : w.arena.Consistent) (h : w.arena.HasLocation w.cursor.location) :
    w.Agrees :=
  ⟨run_next h, run_remove hc h, fun _ hi => run_add hi h⟩

end Walk
end DalvikLinkage.Body
