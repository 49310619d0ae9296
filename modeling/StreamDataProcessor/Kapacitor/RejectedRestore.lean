import StreamDataProcessor.Kapacitor.RecordBatchRequestHandler

/-!
# What a rejected restore leaves behind

A storage clears its points and parses into them before it knows whether that
succeeds, and neither request handler puts them back.
-/

namespace StreamDataProcessor.Kapacitor

open Foundation.Effect Arrow Utils.Uvarint

set_option autoImplicit false

variable {State : Type}

/-- Parsing the data succeeds, or leaves the points that were stored. -/
def ParsesOrKeeps (codec : PointsCodec) (data : Bytes) (contents : Contents State) : Prop :=
  (codec.parse data).2 = true ∨ (codec.parse data).1 = contents.points

namespace BatchRequestHandler

variable (handler : BatchRequestHandler State)

/-- A restore that is answered with a failure leaves the flag and the points. -/
def RejectedRestoreKeeps (snapshot : Bytes) (state : BatchState State) : Prop :=
  ∀ error after, handler.restore snapshot state = .ok (.restore false error) after →
    after.inBatch = state.inBatch ∧ after.contents.points = state.contents.points

/-- There is no storage, or the snapshot has no flag, or its bytes do no harm. -/
def RestoreHarmless (snapshot : Bytes) (state : BatchState State) : Prop :=
  match handler.pointsStorage, snapshot with
  | some _, flag :: data =>
      flag = outOfBatchFlag ∨ flag = inBatchFlag →
        ParsesOrKeeps handler.codec data state.contents
  | _, _ => True

theorem restore_unreached {snapshot : Bytes} {state : BatchState State}
    (unreached : ∃ error, handler.restore snapshot = pure (.restore false error)) :
    handler.RejectedRestoreKeeps snapshot state := by
  intro error after restored
  obtain ⟨text, same⟩ := unreached
  rw [same] at restored
  cases restored
  exact ⟨rfl, rfl⟩

theorem rejected_restore_keeps_iff (snapshot : Bytes) (state : BatchState State) :
    handler.RejectedRestoreKeeps snapshot state ↔ handler.RestoreHarmless snapshot state := by
  obtain ⟨storage, codec⟩ := handler
  cases storage with
  | none => exact iff_of_true (restore_unreached _ ⟨_, rfl⟩) trivial
  | some storage =>
      cases snapshot with
      | nil => exact iff_of_true (restore_unreached _ ⟨_, rfl⟩) trivial
      | cons flag data =>
          by_cases known : flag = outOfBatchFlag ∨ flag = inBatchFlag
          · have unrefused : ¬(flag ≠ outOfBatchFlag ∧ flag ≠ inBatchFlag) := by
              rw [not_and_or, not_not, not_not]
              exact known
            have step : ∀ {Next : Type} (next : Bool → EStateM Fault (BatchState State) Next),
                (onStorage (PointsStorage.restore codec data) >>= next) state =
                  next (codec.parse data).2 { state with contents := { state.contents with
                    points := (codec.parse data).1 } } := fun _ => rfl
            simp only [RejectedRestoreKeeps, RestoreHarmless, restore, if_neg unrefused, step,
              ParsesOrKeeps]
            cases parsed : (codec.parse data).2 with
            | true =>
                apply iff_of_true
                · intro error after restored
                  cases restored
                · intro _
                  exact .inl rfl
            | false =>
                constructor
                · intro keeps _
                  exact .inr (keeps _ _ rfl).2
                · intro harmless error after restored
                  cases restored
                  exact ⟨rfl, (harmless known).resolve_left Bool.false_ne_true⟩
          · have refused : flag ≠ outOfBatchFlag ∧ flag ≠ inBatchFlag := not_or.mp known
            apply iff_of_true
            · apply restore_unreached
              simp only [restore, if_pos refused]
              exact ⟨_, rfl⟩
            · intro accepted
              exact absurd accepted known

end BatchRequestHandler

namespace StreamRequestHandler

variable (handler : StreamRequestHandler State)

def RejectedRestoreKeeps (snapshot : Bytes) (contents : Contents State) : Prop :=
  ∀ error after, handler.restore snapshot contents = .ok (.restore false error) after →
    after.points = contents.points

def RestoreHarmless (snapshot : Bytes) (contents : Contents State) : Prop :=
  handler.pointsStorage = none ∨ ParsesOrKeeps handler.codec snapshot contents

theorem rejected_restore_keeps_iff (snapshot : Bytes) (contents : Contents State) :
    handler.RejectedRestoreKeeps snapshot contents ↔
      handler.RestoreHarmless snapshot contents := by
  obtain ⟨storage, codec⟩ := handler
  cases storage with
  | none =>
      apply iff_of_true
      · intro error after restored
        cases restored
        rfl
      · exact .inl rfl
  | some storage =>
      have step : ∀ {Next : Type} (next : Bool → EStateM Fault (Contents State) Next),
          (PointsStorage.restore codec snapshot >>= next) contents =
            next (codec.parse snapshot).2 { contents with
              points := (codec.parse snapshot).1 } := fun _ => rfl
      simp only [RejectedRestoreKeeps, RestoreHarmless, restore, step, ParsesOrKeeps]
      cases parsed : (codec.parse snapshot).2 with
      | true =>
          apply iff_of_true
          · intro error after restored
            cases restored
          · exact .inr (.inl rfl)
      | false =>
          constructor
          · intro keeps
            exact .inr (.inr (keeps _ _ rfl))
          · intro harmless error after restored
            cases restored
            exact (harmless.resolve_left (by simp)).resolve_left Bool.false_ne_true

end StreamRequestHandler

/-- Both request handlers, in any state and on any bytes. -/
theorem rejected_restores_keep_iff :
    (∀ (handler : BatchRequestHandler State) (snapshot : Bytes) (state : BatchState State),
      handler.RejectedRestoreKeeps snapshot state ↔ handler.RestoreHarmless snapshot state) ∧
    ∀ (handler : StreamRequestHandler State) (snapshot : Bytes) (contents : Contents State),
      handler.RejectedRestoreKeeps snapshot contents ↔
        handler.RestoreHarmless snapshot contents :=
  ⟨BatchRequestHandler.rejected_restore_keeps_iff, StreamRequestHandler.rejected_restore_keeps_iff⟩

def idleHandler : BatchRequestHandler Unit where
  pointsStorage := some {
    pointsConverter := some ⟨fun _ => .ok [], fun _ => .ok []⟩
    handler := some ⟨fun _ => pure []⟩
    providesBatch := false
    renderScalar := fun _ _ => "" }
  codec := ⟨fun _ => [], fun data => ([], data.isEmpty)⟩

/-- One point in a batch, and then a snapshot whose bytes cannot be parsed. -/
theorem malformed_restore_drops_points :
    ¬∀ (handler : BatchRequestHandler Unit) (history : List BatchRequest) (snapshot : Bytes)
      (state : BatchState Unit),
      handler.handleRequests history { contents := { handler := () } } = .ok () state →
      handler.RejectedRestoreKeeps snapshot state := by
  intro keeps
  have kept := keeps idleHandler [.beginBatch, .point {}] [outOfBatchFlag, 255] _ rfl _ _ rfl
  cases kept.2

end StreamDataProcessor.Kapacitor
