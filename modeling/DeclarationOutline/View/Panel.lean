import DeclarationOutline.View.Entry

/-! The panel that shows an outline: the current order and a revision number that
tells its listeners when to show everything anew. It keeps no entries. -/
namespace DeclarationOutline

/-- Listeners are numbered in the order in which they subscribed. -/
structure Panel where
  order : ViewOrder
  revision : Nat
  listeners : Nat
  deriving DecidableEq, Repr

/-- A listener learns of a revision. -/
structure Notice where
  listener : Nat
  revision : Nat
  deriving DecidableEq, Repr

/-- A place where a chosen order is kept, as a function on the state that holds
it. A store that fails may still have changed its state. -/
structure PreferenceStore (σ : Type) where
  keep : ViewOrder → σ → Except Error Unit × σ

/-- What an editor reports. -/
inductive EditorEvent where
  | switchedTo (path : Path)
  | changed (path : Path)
  deriving DecidableEq, Repr

def EditorEvent.path : EditorEvent → Path
  | switchedTo path => path
  | changed path => path

namespace Panel

def new (order : ViewOrder) : Panel := ⟨order, 0, 0⟩

/-- The number of the new listener, and the panel that has it. -/
def subscribe (panel : Panel) : Nat × Panel :=
  (panel.listeners, { panel with listeners := panel.listeners + 1 })

/-- The next revision, which every listener learns of in turn. -/
def refresh (panel : Panel) : Panel × List Notice :=
  let revision := panel.revision + 1
  ({ panel with revision }, (List.range panel.listeners).map (⟨·, revision⟩))

/-- Changes the order. Nothing is refreshed unless it really changes, which the
first component tells. -/
def setOrder (panel : Panel) (order : ViewOrder) : Bool × Panel × List Notice :=
  if panel.order = order then (false, panel, [])
  else (true, { panel with order }.refresh)

/-- The user's choice of an order: set it and store it. The panel does not depend
on whether storing works. -/
def choose {σ : Type} (panel : Panel) (store : PreferenceStore σ) (order : ViewOrder) (state : σ) :
    Except Error Unit × σ × Panel × List Notice :=
  let (_, panel, notices) := panel.setOrder order
  let (result, state) := store.keep order state
  (result, state, panel, notices)

/-- Only activity in CAPL sources matters. -/
def handle (panel : Panel) (event : EditorEvent) : Bool × Panel × List Notice :=
  if event.path.isSource then (true, panel.refresh) else (false, panel, [])

/-- What the panel shows of a kind while `active` is open. -/
def entries (panel : Panel) (kind : Kind) : (active : Option SourceText) → List Entry
  | some source => source.outline kind panel.order
  | none => []

end Panel

end DeclarationOutline
