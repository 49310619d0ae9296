import StreamDataProcessor.Kapacitor.Views

/-!
# Runs after other runs

The responses to later requests do not depend on what has been written before, only on
the rest of the state that the earlier requests left.
-/

namespace StreamDataProcessor.Kapacitor

open Foundation.Effect Arrow Utils.Uvarint

set_option autoImplicit false

variable {State : Type}

def Contents.preceded (earlier : List Event) (contents : Contents State) : Contents State :=
  { contents with events := earlier ++ contents.events }

namespace PointsStorage

variable (earlier : List Event)

/-- What an action does to a state is the same after other events. -/
abbrev IgnoresLog {Value : Type} (action : EStateM Fault (Contents State) Value) : Prop :=
  Over (Contents.preceded earlier) action action

theorem note_ignores_log (event : Event) :
    IgnoresLog earlier (note event : EStateM Fault (Contents State) Unit) :=
  note_sees id earlier event

theorem handle_batch_logged_ignores_log (storage : PointsStorage State) :
    IgnoresLog earlier storage.handleBatchLogged :=
  handle_batch_logged_sees earlier (handlers_over_id storage.handler)

end PointsStorage

section Responses

variable {Refined : Type} (contents : Refined → Contents State)

def responsesFrom (before : Refined) (result : EStateM.Result Fault Refined Unit) :
    List Response × Option Fault :=
  match result with
  | .ok _ after => ((contents after).written.drop (contents before).written.length, none)
  | .error fault after => ((contents after).written.drop (contents before).written.length, some fault)

/-- Events that came before, and what is not seen of the state, make no difference. -/
theorem responses_from_projected {Plain View : Type} {plain : Plain → Contents View}
    {earlier : List Event} {project : Refined → Plain}
    (own : ∀ state, (plain (project state)).events = earlier ++ (contents state).events)
    (before : Refined) (result : EStateM.Result Fault Refined Unit) :
    responsesFrom plain (project before) (projectResult project result) =
      responsesFrom contents before result := by
  have written : ∀ state, (plain (project state)).written =
      earlier.filterMap Event.response? ++ (contents state).written := by
    intro state
    rw [Contents.written, own, List.filterMap_append]
    rfl
  cases result with
  | ok value after =>
      simp only [responsesFrom, projectResult, written, List.length_append,
        List.drop_length_add_append]
  | error fault after =>
      simp only [responsesFrom, projectResult, written, List.length_append,
        List.drop_length_add_append]

end Responses

namespace BatchRequestHandler

open PointsStorage

variable (handler : BatchRequestHandler State)

def preceded (earlier : List Event) (state : BatchState State) : BatchState State :=
  { state with contents := state.contents.preceded earlier }

variable (earlier : List Event)

theorem on_storage_ignores_log {Value : Type} {action : EStateM Fault (Contents State) Value}
    (ignores : IgnoresLog earlier action) :
    Over (preceded earlier) (onStorage action) (onStorage action) := by
  intro state
  have same := ignores state.contents
  change projectResult _ (onStorage action state) =
    onStorage action { state with contents := state.contents.preceded earlier }
  unfold onStorage
  dsimp only
  rw [← same]
  cases action state.contents <;> rfl

theorem snapshot_ignores_log :
    Over (preceded earlier) handler.snapshot handler.snapshot := by
  unfold snapshot
  cases handler.pointsStorage with
  | none =>
      apply over_bind (on_storage_ignores_log earlier (note_ignores_log earlier _))
      intro _
      exact over_pure _
  | some storage =>
      apply over_get_bind
      intro state
      exact over_pure _

theorem restore_ignores_log (data : Bytes) :
    Over (preceded earlier) (handler.restore data) (handler.restore data) := by
  obtain ⟨storage, codec⟩ := handler
  cases storage with
  | none => exact over_pure _
  | some storage =>
      cases data with
      | nil => exact over_pure _
      | cons flag rest =>
          simp only [restore]
          apply over_ite
          · exact over_pure _
          · apply over_bind (on_storage_ignores_log earlier fun _ => rfl)
            intro success
            apply over_ite
            · apply over_bind
              · exact over_modify fun _ => rfl
              · intro _
                exact over_pure _
            · exact over_pure _

theorem point_ignores_log (point : Point) :
    Over (preceded earlier) (handler.point point) (handler.point point) := by
  unfold BatchRequestHandler.point
  cases handler.pointsStorage with
  | none => exact on_storage_ignores_log earlier (note_ignores_log earlier _)
  | some storage =>
      apply over_get_bind
      intro state
      apply over_ite
      · exact on_storage_ignores_log earlier fun _ => rfl
      · exact on_storage_ignores_log earlier (note_ignores_log earlier _)

theorem end_batch_ignores_log (name : String) :
    Over (preceded earlier) (handler.endBatch name) (handler.endBatch name) := by
  unfold endBatch
  cases handler.pointsStorage with
  | none => exact on_storage_ignores_log earlier (note_ignores_log earlier _)
  | some storage =>
      have handled : Over (preceded earlier)
          (do
            onStorage (setPointsName name)
            onStorage storage.handleBatchLogged
            onStorage clear
            modify fun state => { state with inBatch := false } :
              EStateM Fault (BatchState State) Unit)
          (do
            onStorage (setPointsName name)
            onStorage storage.handleBatchLogged
            onStorage clear
            modify fun state => { state with inBatch := false }) := by
        apply over_bind (on_storage_ignores_log earlier fun _ => rfl)
        intro _
        apply over_bind (on_storage_ignores_log earlier
          (handle_batch_logged_ignores_log earlier storage))
        intro _
        apply over_bind (on_storage_ignores_log earlier fun _ => rfl)
        intro _
        exact over_modify fun _ => rfl
      apply over_get_bind
      intro state
      apply over_ite
      · apply over_bind (on_storage_ignores_log earlier (note_ignores_log earlier _))
        intro _
        exact handled
      · exact handled

theorem handle_request_ignores_log (request : BatchRequest) :
    Over (preceded earlier) (handler.handleRequest request) (handler.handleRequest request) := by
  cases request with
  | beginBatch => exact over_modify fun _ => rfl
  | point point => exact point_ignores_log handler earlier point
  | endBatch name => exact end_batch_ignores_log handler earlier name
  | snapshot =>
      apply over_bind (snapshot_ignores_log handler earlier)
      intro response
      exact on_storage_ignores_log earlier (note_ignores_log earlier _)
  | restore data =>
      apply over_bind (restore_ignores_log handler earlier data)
      intro response
      exact on_storage_ignores_log earlier (note_ignores_log earlier _)

theorem handle_requests_ignores_log (requests : List BatchRequest) :
    Over (preceded earlier) (handler.handleRequests requests) (handler.handleRequests requests) := by
  induction requests with
  | nil => exact over_pure _
  | cons request rest induction =>
      apply over_bind (handle_request_ignores_log handler earlier request)
      intro _
      exact induction

def answers (requests : List BatchRequest) (state : BatchState State) :
    List Response × Option Fault :=
  responsesFrom BatchState.contents state (handler.handleRequests requests state)

theorem answers_preceded (requests : List BatchRequest) (state : BatchState State) :
    handler.answers requests (preceded earlier state) = handler.answers requests state := by
  rw [answers, ← handle_requests_ignores_log handler earlier requests state]
  exact responses_from_projected BatchState.contents (fun _ => rfl) state _

variable {handler}

/-- A handler in the state of another but for its points and its flag, and without events,
goes on as the other one does once it has its snapshot. -/
theorem restore_resumes {storage : PointsStorage State}
    (stored : handler.pointsStorage = some storage) (state : BatchState State)
    (roundTrips : handler.codec.parse (handler.codec.serialize state.contents.points) =
      (state.contents.points, true)) :
    ∃ snapshot restored, handler.snapshot state = .ok (.snapshot snapshot) state ∧
      handler.restore snapshot { contents := { handler := state.contents.handler } } =
        .ok (.restore true "") restored ∧
      ∀ later, handler.answers later restored = handler.answers later state := by
  obtain ⟨ownStorage, codec⟩ := handler
  obtain rfl : ownStorage = some storage := stored
  obtain ⟨inBatch, own, points, events⟩ := state
  have resumed : ∀ later, BatchRequestHandler.answers ⟨some storage, codec⟩ later
      { inBatch, contents := { handler := own, points } } =
      BatchRequestHandler.answers ⟨some storage, codec⟩ later ⟨inBatch, own, points, events⟩ := by
    intro later
    rw [← answers_preceded ⟨some storage, codec⟩ events later, preceded, Contents.preceded,
      List.append_nil]
  have flags : ∀ flag, flag = outOfBatchFlag ∨ flag = inBatchFlag →
      restore ⟨some storage, codec⟩ (flag :: codec.serialize points)
        { contents := { handler := own } } =
      .ok (.restore true "") { inBatch := flag = inBatchFlag, contents := { handler := own, points } } := by
    intro flag known
    have unrefused : ¬(flag ≠ outOfBatchFlag ∧ flag ≠ inBatchFlag) := by
      rw [not_and_or, not_not, not_not]
      exact known
    have stores : onStorage (PointsStorage.restore codec (codec.serialize points))
        { contents := { handler := own } : BatchState State } =
          .ok true { contents := { handler := own, points } } := by
      have parsed : codec.parse (codec.serialize points) = (points, true) := roundTrips
      rw [onStorage, restore_apply, parsed]
    simp only [restore, if_neg unrefused, bind_of_ok stores]
    rfl
  cases inBatch with
  | true => exact ⟨_, _, rfl, flags inBatchFlag (.inr rfl), resumed⟩
  | false => exact ⟨_, _, rfl, flags outOfBatchFlag (.inl rfl), resumed⟩

end BatchRequestHandler

end StreamDataProcessor.Kapacitor
