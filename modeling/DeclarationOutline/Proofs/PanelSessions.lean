import Mathlib.Data.List.Range
import DeclarationOutline.View.Panel

/-! A panel in use. It is asked one thing after another; what a single request does to the
order, the revision and the listeners is said once, and from it follows what a whole session
does: which order is shown in the end, what every listener was told, and that stores have no
part in either. -/
namespace DeclarationOutline

/-- The earlier revision first, and in one revision the earlier listener. -/
def Notice.Precedes (a b : Notice) : Prop :=
  a.revision < b.revision ∨ a.revision = b.revision ∧ a.listener < b.listener

namespace Panel

/-- What a panel is asked. An order that changed elsewhere is adopted and not stored; an order
that the user chooses goes to a store, which may be another one each time. -/
inductive Request (σ : Type) where
  | subscribe
  | refresh
  | setOrder (order : ViewOrder)
  | adopt (order : ViewOrder)
  | choose (order : ViewOrder) (store : PreferenceStore σ)
  | handle (event : EditorEvent)
  | entries (kind : Kind) (active : Option SourceText)

inductive Reply where
  | listener (number : Nat)
  | done
  | changed (changed : Bool)
  | stored (result : Except Error Unit)
  | shown (entries : List Entry)

/-- The panel, what the stores hold, and all notices so far, the oldest first. -/
structure Session (σ : Type) where
  panel : Panel
  stores : σ
  notices : List Notice

namespace Session

variable {σ : Type}

def start (order : ViewOrder) (stores : σ) : Session σ :=
  ⟨Panel.new order, stores, []⟩

def ask (session : Session σ) : Request σ → Reply × Session σ
  | .subscribe =>
      let (number, panel) := session.panel.subscribe
      (.listener number, { session with panel })
  | .refresh =>
      let (panel, notices) := session.panel.refresh
      (.done, { session with panel, notices := session.notices ++ notices })
  | .setOrder order | .adopt order =>
      let (changed, panel, notices) := session.panel.setOrder order
      (.changed changed, { session with panel, notices := session.notices ++ notices })
  | .choose order store =>
      let (result, stores, panel, notices) := session.panel.choose store order session.stores
      (.stored result, ⟨panel, stores, session.notices ++ notices⟩)
  | .handle event =>
      let (changed, panel, notices) := session.panel.handle event
      (.changed changed, { session with panel, notices := session.notices ++ notices })
  | .entries kind active => (.shown (session.panel.entries kind active), session)

def reply (session : Session σ) (request : Request σ) : Reply :=
  (session.ask request).1

def step (session : Session σ) (request : Request σ) : Session σ :=
  (session.ask request).2

def run (session : Session σ) (requests : List (Request σ)) : Session σ :=
  requests.foldl step session

/-- The session of a new panel once it has been asked all requests. -/
def after (order : ViewOrder) (stores : σ) (requests : List (Request σ)) : Session σ :=
  (start order stores).run requests

/-- The revisions that a listener learned of, in the order in which it did. -/
def received (session : Session σ) (listener : Nat) : List Nat :=
  (session.notices.filter (·.listener == listener)).map (·.revision)

end Session

namespace Request

variable {σ : Type}

/-- The order that is asked for, if one is. -/
def order? : Request σ → Option ViewOrder
  | setOrder order | adopt order | choose order _ => some order
  | _ => none

/-- Whether a request makes a panel show everything anew. -/
def raises (panel : Panel) : Request σ → Bool
  | refresh => true
  | setOrder order | adopt order | choose order _ => panel.order ≠ order
  | handle event => event.path.isSource
  | subscribe | entries .. => false

/-- Whether the reply to a request says if anything changed. -/
def tells : Request σ → Bool
  | setOrder _ | adopt _ | handle _ => true
  | _ => false

def subscribes : Request σ → Bool
  | subscribe => true
  | _ => false

/-- The request with nothing said about where an order is stored. -/
def withoutStore : Request σ → Request Unit
  | subscribe => subscribe
  | refresh => refresh
  | setOrder order => setOrder order
  | adopt order => adopt order
  | choose order _ => choose order ⟨fun _ _ => (.ok (), ())⟩
  | handle event => handle event
  | entries kind active => entries kind active

theorem order?_withoutStore (request : Request σ) :
    request.withoutStore.order? = request.order? := by
  cases request <;> rfl

theorem raises_withoutStore (panel : Panel) (request : Request σ) :
    request.withoutStore.raises panel = request.raises panel := by
  cases request <;> rfl

theorem subscribes_withoutStore (request : Request σ) :
    request.withoutStore.subscribes = request.subscribes := by
  cases request <;> rfl

/-- The panel after a request. -/
def panelAfter (panel : Panel) (request : Request σ) : Panel where
  order := request.order?.getD panel.order
  revision := if request.raises panel then panel.revision + 1 else panel.revision
  listeners := if request.subscribes then panel.listeners + 1 else panel.listeners

/-- What the listeners of a panel are told because of a request, each in turn. -/
def noticesOf (panel : Panel) (request : Request σ) : List Notice :=
  if request.raises panel then (List.range panel.listeners).map (⟨·, panel.revision + 1⟩) else []

end Request

namespace Session

variable (σ : Type)

theorem setOrder_eq (panel : Panel) (order : ViewOrder) : panel.setOrder order =
    (decide (panel.order ≠ order), (Request.setOrder order : Request σ).panelAfter panel,
      (Request.setOrder order : Request σ).noticesOf panel) := by
  by_cases horder : panel.order = order
  · subst horder
    simp [setOrder, Request.panelAfter, Request.noticesOf, Request.order?, Request.raises,
      Request.subscribes]
  · simp [setOrder, refresh, horder, Request.panelAfter, Request.noticesOf, Request.order?,
      Request.raises, Request.subscribes]

theorem handle_eq (panel : Panel) (event : EditorEvent) : panel.handle event =
    (event.path.isSource, (Request.handle event : Request σ).panelAfter panel,
      (Request.handle event : Request σ).noticesOf panel) := by
  cases hsource : event.path.isSource <;>
    simp [handle, refresh, hsource, Request.panelAfter, Request.noticesOf, Request.order?,
      Request.raises, Request.subscribes]

variable {σ}

/-- All that a request does outside the stores. -/
theorem step_eq (session : Session σ) (request : Request σ) :
    (session.step request).panel = request.panelAfter session.panel ∧
      (session.step request).notices = session.notices ++ request.noticesOf session.panel := by
  cases request with
  | subscribe => exact ⟨rfl, (List.append_nil _).symm⟩
  | refresh => exact ⟨rfl, rfl⟩
  | setOrder order => simp only [step, ask, setOrder_eq σ, and_self]
  | adopt order =>
      simp only [step, ask, setOrder_eq σ]
      exact ⟨rfl, rfl⟩
  | choose order store =>
      simp only [step, ask, choose, setOrder_eq σ]
      exact ⟨rfl, rfl⟩
  | handle event => simp only [step, ask, handle_eq σ, and_self]
  | entries kind active => exact ⟨rfl, (List.append_nil _).symm⟩

theorem reply_of_tells (session : Session σ) {request : Request σ} (htells : request.tells = true) :
    session.reply request = .changed (request.raises session.panel) := by
  cases request with
  | setOrder order => simp [reply, ask, setOrder_eq σ, Request.raises]
  | adopt order => simp [reply, ask, setOrder_eq σ, Request.raises]
  | handle event => simp [reply, ask, handle_eq σ, Request.raises]
  | _ => contradiction

/-- A property that every request keeps holds at the end of a session. -/
theorem run_induction (P : Session σ → Prop) (hstep : ∀ session request, P session →
    P (session.step request)) {session : Session σ} (h : P session) (requests : List (Request σ)) :
    P (session.run requests) := by
  induction requests generalizing session with
  | nil => exact h
  | cons request requests ih => exact ih (hstep session request h)

theorem run_append (session : Session σ) (before after : List (Request σ)) :
    session.run (before ++ after) = (session.run before).run after :=
  List.foldl_append

theorem order_run (session : Session σ) (requests : List (Request σ)) :
    (session.run requests).panel.order =
      (requests.filterMap Request.order?).getLast?.getD session.panel.order := by
  induction requests generalizing session with
  | nil => rfl
  | cons request requests ih =>
      have hnext : (session.step request).panel.order = request.order?.getD session.panel.order :=
        congrArg Panel.order (step_eq session request).1
      have hrest := ih (session.step request)
      rw [hnext] at hrest
      cases horder : request.order? with
      | none => simpa [run, List.filterMap_cons, horder] using hrest
      | some order => simpa [run, List.filterMap_cons, horder, List.getLast?_cons] using hrest

/-- The panel and the notices are the same without any stores. -/
theorem run_withoutStore (session : Session σ) (bare : Session Unit)
    (hpanel : session.panel = bare.panel) (hnotices : session.notices = bare.notices)
    (requests : List (Request σ)) :
    (session.run requests).panel = (bare.run (requests.map Request.withoutStore)).panel ∧
      (session.run requests).notices =
        (bare.run (requests.map Request.withoutStore)).notices := by
  induction requests generalizing session bare with
  | nil => exact ⟨hpanel, hnotices⟩
  | cons request requests ih =>
      apply ih
      · rw [(step_eq _ _).1, (step_eq _ _).1, hpanel]
        simp [Request.panelAfter, Request.order?_withoutStore, Request.raises_withoutStore,
          Request.subscribes_withoutStore]
      · rw [(step_eq _ _).2, (step_eq _ _).2, hpanel, hnotices]
        simp [Request.noticesOf, Request.raises_withoutStore]

/-- Notices are in order, and none is about what has not been yet. -/
structure Consistent (session : Session σ) : Prop where
  known : ∀ notice ∈ session.notices,
    notice.listener < session.panel.listeners ∧ notice.revision ≤ session.panel.revision
  ordered : session.notices.Pairwise Notice.Precedes

theorem consistent_start (order : ViewOrder) (stores : σ) : (start order stores).Consistent :=
  ⟨by simp [start], .nil⟩

theorem mem_noticesOf {panel : Panel} {request : Request σ} {notice : Notice}
    (hmem : notice ∈ request.noticesOf panel) : request.raises panel = true ∧
      notice.listener < panel.listeners ∧ notice.revision = panel.revision + 1 := by
  unfold Request.noticesOf at hmem
  split at hmem
  · obtain ⟨listener, hlistener, rfl⟩ := List.mem_map.mp hmem
    exact ⟨by assumption, List.mem_range.mp hlistener, rfl⟩
  · contradiction

theorem pairwise_noticesOf (panel : Panel) (request : Request σ) :
    (request.noticesOf panel).Pairwise Notice.Precedes := by
  unfold Request.noticesOf
  split
  · rw [List.pairwise_map]
    apply List.pairwise_lt_range.imp
    intro a b hlt
    exact .inr ⟨rfl, hlt⟩
  · exact .nil

theorem listeners_le_panelAfter (panel : Panel) (request : Request σ) :
    panel.listeners ≤ (request.panelAfter panel).listeners := by
  simp only [Request.panelAfter]
  split <;> omega

theorem Consistent.step {session : Session σ} (h : session.Consistent) (request : Request σ) :
    (session.step request).Consistent := by
  obtain ⟨hpanel, hnotices⟩ := step_eq session request
  have hlisteners := listeners_le_panelAfter session.panel request
  constructor
  · rw [hpanel, hnotices]
    intro notice hmem
    rcases List.mem_append.mp hmem with hold | hnew
    · have hknown := h.known notice hold
      simp only [Request.panelAfter] at hlisteners ⊢
      exact ⟨by omega, by split <;> omega⟩
    · obtain ⟨hraises, hlistener, hrevision⟩ := mem_noticesOf hnew
      simp only [Request.panelAfter, hraises, if_true] at hlisteners ⊢
      exact ⟨by omega, by omega⟩
  · rw [hnotices, List.pairwise_append]
    refine ⟨h.ordered, pairwise_noticesOf session.panel request, ?_⟩
    intro a ha b hb
    have hknown := h.known a ha
    have hnew := mem_noticesOf hb
    exact .inl (by omega)

theorem consistent_after (order : ViewOrder) (stores : σ) (requests : List (Request σ)) :
    (after order stores requests).Consistent :=
  run_induction Consistent (fun _ request h => h.step request) (consistent_start order stores)
    requests

/-- Whatever happened since a listener came, it was told once, in order. -/
structure UpToDate (session : Session σ) (listener since : Nat) : Prop where
  subscribed : listener < session.panel.listeners
  since_le : since ≤ session.panel.revision
  received : session.received listener =
    List.range' (since + 1) (session.panel.revision - since)

theorem received_step (session : Session σ) (request : Request σ) {listener : Nat}
    (hlistener : listener < session.panel.listeners) :
    (session.step request).received listener = session.received listener ++
      if request.raises session.panel then [session.panel.revision + 1] else [] := by
  rw [received, (step_eq session request).2, List.filter_append, List.map_append]
  congr 1
  unfold Request.noticesOf
  split
  · have hone : (List.range session.panel.listeners).filter (· == listener) = [listener] := by
      rw [List.filter_beq, List.count_range, if_pos hlistener]
      rfl
    rw [List.filter_map, Function.comp_def, hone]
    rfl
  · rfl

theorem UpToDate.step {session : Session σ} {listener since : Nat}
    (h : session.UpToDate listener since) (request : Request σ) :
    (session.step request).UpToDate listener since := by
  have hlisteners := listeners_le_panelAfter session.panel request
  have hsubscribed := h.subscribed
  have hsince := h.since_le
  have hreceived := received_step session request h.subscribed
  rw [h.received] at hreceived
  rw [← (step_eq session request).1] at hlisteners
  have hrevision : (session.step request).panel.revision =
      if request.raises session.panel then session.panel.revision + 1
      else session.panel.revision :=
    congrArg Panel.revision (step_eq session request).1
  constructor
  · omega
  · rw [hrevision]
    split <;> omega
  · rw [hreceived, hrevision]
    split
    · -- One more notice, and its revision is the next number.
      have hcount : session.panel.revision + 1 - since =
          session.panel.revision - since + 1 := by omega
      rw [hcount, List.range'_1_concat]
      congr 2
      omega
    · exact List.append_nil _

theorem UpToDate.run {session : Session σ} {listener since : Nat}
    (h : session.UpToDate listener since) (requests : List (Request σ)) :
    (session.run requests).UpToDate listener since :=
  run_induction (·.UpToDate listener since) (fun _ request h => h.step request) h requests

theorem Consistent.upToDate_subscribe {session : Session σ} (h : session.Consistent) :
    (session.step .subscribe).UpToDate session.panel.listeners session.panel.revision := by
  have hnone : session.notices.filter (·.listener == session.panel.listeners) = [] := by
    rw [List.filter_eq_nil_iff]
    intro notice hmem
    have hknown := h.known notice hmem
    simp only [beq_iff_eq]
    omega
  refine ⟨Nat.lt_succ_self _, le_rfl, ?_⟩
  change (session.notices.filter (·.listener == session.panel.listeners)).map (·.revision) =
    List.range' _ (session.panel.revision - session.panel.revision)
  rw [hnone, Nat.sub_self]
  rfl

end Session

open Session in
/-- Sessions of a panel, whatever is asked and whatever the stores do. A request raises the
revision by one or not at all, and says which if it replies to that; all listeners hear of a
raise in turn. The panel has the order that was asked for last, and each listener was told
the revisions since it subscribed. -/
theorem session_history {σ : Type} (order : ViewOrder) (stores : σ)
    (requests : List (Request σ)) :
    (∀ request : Request σ,
      let session := after order stores requests
      let next := session.step request
      next.panel.revision =
          (if request.raises session.panel then session.panel.revision + 1
            else session.panel.revision) ∧
        (request.tells → session.reply request =
          .changed (next.panel.revision = session.panel.revision + 1)) ∧
        next.notices = session.notices ++
          if next.panel.revision = session.panel.revision + 1 then
            (List.range session.panel.listeners).map (⟨·, session.panel.revision + 1⟩)
          else []) ∧
      (after order stores requests).panel.order =
        (requests.filterMap Request.order?).getLast?.getD order ∧
      (∀ before later, requests = before ++ .subscribe :: later →
        ∃ listener, (after order stores before).reply .subscribe = .listener listener ∧
          (after order stores requests).received listener =
            List.range' ((after order stores before).panel.revision + 1)
              ((after order stores requests).panel.revision -
                (after order stores before).panel.revision)) ∧
      (after order stores requests).notices.Pairwise Notice.Precedes ∧
      ∀ (τ : Type) (others : τ) (requests' : List (Request τ)),
        requests'.map Request.withoutStore = requests.map Request.withoutStore →
          (after order others requests').panel = (after order stores requests).panel ∧
            (after order others requests').notices = (after order stores requests).notices := by
  refine ⟨?_, order_run _ requests, ?_, (consistent_after order stores requests).ordered, ?_⟩
  · intro request session next
    have hrevision : next.panel.revision = if request.raises session.panel
        then session.panel.revision + 1 else session.panel.revision :=
      congrArg Panel.revision (step_eq session request).1
    have hraised : next.panel.revision = session.panel.revision + 1 ↔
        request.raises session.panel = true := by
      rw [hrevision]
      split <;> simp_all
    refine ⟨hrevision, ?_, ?_⟩
    · intro htells
      rw [reply_of_tells session htells]
      simp only [hraised, Bool.decide_eq_true]
    · simp only [hraised]
      exact (step_eq session request).2
  · rintro before later rfl
    refine ⟨_, rfl, ?_⟩
    rw [after, run_append]
    exact ((consistent_after order stores before).upToDate_subscribe.run later).received
  · intro τ others requests' hsame
    have hothers := run_withoutStore (start order others) (start order ()) rfl rfl requests'
    have hrequests := run_withoutStore (start order stores) (start order ()) rfl rfl requests
    rw [hsame] at hothers
    exact ⟨hothers.1.trans hrequests.1.symm, hothers.2.trans hrequests.2.symm⟩

end Panel

end DeclarationOutline
