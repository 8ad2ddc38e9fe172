import Wayfinding.Navigation

namespace Wayfinding

/-- A computation on a navigation in place: what it has done before it fails stays done. -/
abbrev InPlace := ExceptT NavigationError (StateM Navigation)

namespace InPlace

/-- Fails with the error of a check. -/
def require {α : Type} (check : Except NavigationError α) : InPlace α := ExceptT.mk (pure check)

def record (event : Event) : InPlace Unit := do
  modify (·.apply event)
  modify fun nav => { nav with uncommitted := nav.uncommitted ++ [event] }

def create (name : String) (items : List Item) : InPlace Unit := do
  let nav ← get
  if nav.isCreated then throw (.alreadyCreated nav.id)
  let name := Text.trim name
  if name = "" then throw .emptyName
  require (Navigation.checkItems items)
  require (Tree.checkDuplicates [] items)
  record (.created name)
  if !items.isEmpty then record (.itemsAdded (Tree.setInitial items true) 0 "")

def insertAt (path : String) (index : Int) (items : List Item) : InPlace Unit := do
  if index < 0 then throw (.negativeIndex index)
  let level ← require ((← get).tree.level path)
  if items.isEmpty then return
  require (Navigation.checkItems items)
  require (level.checkDuplicates items)
  record (.itemsAdded (Tree.setInitial items false) (min index.toNat level.length) path)

def appendAt (path : String) (items : List Item) : InPlace Unit := do
  let level ← require ((← get).tree.level path)
  insertAt path level.length items

def remove (paths : List String) : InPlace Unit := do
  let found ← require ((← get).removable paths)
  if found.isEmpty then return
  record (.itemsRemoved found)

def sortAt (path : String) (sorting : List String) : InPlace Unit := do
  let level ← require ((← get).tree.level path)
  let sorting := level.sortingFor sorting
  if level.wouldReorder sorting then record (.sorted sorting path)

def perform : Intent → InPlace Unit
  | .create name items => create name items
  | .insert index items => insertAt "" index items
  | .insertAt path index items => insertAt path index items
  | .prepend items => insertAt "" 0 items
  | .prependAt path items => insertAt path 0 items
  | .append items => appendAt "" items
  | .appendAt path items => appendAt path items
  | .remove paths => remove paths
  | .sort sorting => sortAt "" sorting
  | .sortAt path sorting => sortAt path sorting

/-- The outcome of a computation, and the navigation that it leaves. -/
def runOn {α : Type} (change : InPlace α) (nav : Navigation) : Except NavigationError α × Navigation :=
  StateT.run (ExceptT.run change) nav

/-- Goes on with what a check gives, and stops with its error. -/
def following {α β : Type} (check : Except NavigationError α) (nav : Navigation)
    (next : α → Except NavigationError β × Navigation) : Except NavigationError β × Navigation :=
  match check with
  | .ok a => next a
  | .error error => (.error error, nav)

/-- The navigation that an intent leads to, or the one that was there before. -/
def settle (nav : Navigation) (result : Except NavigationError Navigation) :
    Except NavigationError Unit × Navigation :=
  following result nav fun after => (.ok (), after)

section Run

variable (nav : Navigation) {α β : Type}

@[simp] theorem runOn_pure (a : β) : runOn (pure a) nav = (.ok a, nav) := rfl

@[simp] theorem runOn_get_bind (next : Navigation → InPlace β) :
    runOn (get >>= next) nav = runOn (next nav) nav := rfl

@[simp] theorem runOn_throw (error : NavigationError) :
    runOn (throw error : InPlace β) nav = (.error error, nav) := rfl

@[simp] theorem runOn_require_bind (check : Except NavigationError α) (next : α → InPlace β) :
    runOn (require check >>= next) nav = following check nav fun a => runOn (next a) nav := by
  cases check <;> rfl

@[simp] theorem runOn_record (event : Event) :
    runOn (record event) nav = (.ok (), nav.record event) := rfl

@[simp] theorem runOn_record_bind (event : Event) (next : Unit → InPlace β) :
    runOn (record event >>= next) nav = runOn (next ()) (nav.record event) := rfl

@[simp] theorem runOn_ite (p : Prop) [Decidable p] (first second : InPlace β) :
    runOn (if p then first else second) nav = if p then runOn first nav else runOn second nav :=
  apply_ite (runOn · nav) p first second

@[simp] theorem settle_pure (after : Navigation) : settle nav (pure after) = (.ok (), after) := rfl

@[simp] theorem following_throw (error : NavigationError)
    (next : α → Except NavigationError β × Navigation) :
    following (throw error) nav next = (.error error, nav) := rfl

@[simp] theorem settle_map (check : Except NavigationError α) (next : α → Navigation) :
    settle nav (next <$> check) = following check nav fun a => (.ok (), next a) := by
  cases check <;> rfl

@[simp] theorem settle_bind (check : Except NavigationError α)
    (next : α → Except NavigationError Navigation) :
    settle nav (check >>= next) = following check nav fun a => settle nav (next a) := by
  cases check <;> rfl

@[simp] theorem settle_ite (p : Prop) [Decidable p] (first second : Except NavigationError Navigation) :
    settle nav (if p then first else second) = if p then settle nav first else settle nav second :=
  apply_ite (settle nav) p first second

end Run

theorem runOn_create (nav : Navigation) (name : String) (items : List Item) :
    (create name items).runOn nav = settle nav (nav.create name items) := by
  cases items <;> simp [create, Navigation.create]

theorem runOn_insertAt (nav : Navigation) (path : String) (index : Int) (items : List Item) :
    (insertAt path index items).runOn nav = settle nav (nav.insertAt path index items) := by
  simp [insertAt, Navigation.insertAt]

theorem runOn_appendAt (nav : Navigation) (path : String) (items : List Item) :
    (appendAt path items).runOn nav = settle nav (nav.appendAt path items) := by
  simp [appendAt, Navigation.appendAt, runOn_insertAt]

theorem runOn_remove (nav : Navigation) (paths : List String) :
    (remove paths).runOn nav = settle nav (nav.remove paths) := by
  simp [remove, Navigation.remove]

theorem runOn_sortAt (nav : Navigation) (path : String) (order : List String) :
    (sortAt path order).runOn nav = settle nav (nav.sortAt path order) := by
  simp [sortAt, Navigation.sortAt]

/-- In place every intent comes to its result, or to its error and the navigation as it was. -/
theorem runOn_perform (nav : Navigation) (intent : Intent) :
    (perform intent).runOn nav = settle nav (nav.perform intent) := by
  cases intent with
  | create name items => exact runOn_create nav name items
  | insert index items => exact runOn_insertAt nav "" index items
  | insertAt path index items => exact runOn_insertAt nav path index items
  | prepend items => exact runOn_insertAt nav "" 0 items
  | prependAt path items => exact runOn_insertAt nav path 0 items
  | append items => exact runOn_appendAt nav "" items
  | appendAt path items => exact runOn_appendAt nav path items
  | remove paths => exact runOn_remove nav paths
  | sort order => exact runOn_sortAt nav "" order
  | sortAt path order => exact runOn_sortAt nav path order

end InPlace

end Wayfinding
