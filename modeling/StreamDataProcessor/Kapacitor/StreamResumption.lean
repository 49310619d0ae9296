import StreamDataProcessor.Kapacitor.Resumption
import StreamDataProcessor.Kapacitor.StreamUdfs
import Mathlib.Data.Countable.Basic
import Mathlib.Data.Rat.Denumerable
import Mathlib.Logic.Equiv.List
import Mathlib.Tactic.DeriveCountable

/-!
# What a stream UDF resumes from

A snapshot holds the points that wait, and nothing of the record batch handlers. Where these
are as they were created, the restored UDF goes on as the other one would.
-/

namespace StreamDataProcessor.Kapacitor

open Foundation Foundation.Effect Foundation.Binary64 Arrow Metadata Handlers Utils.Uvarint

set_option autoImplicit false

section Codecs

deriving instance Countable for Double

instance char_countable : Countable Char := by
  apply Function.Injective.countable (f := Char.toNat)
  intro first second same
  exact Char.toNat_inj.mp same

instance string_countable : Countable String := by
  apply Function.Injective.countable (f := String.toList)
  intro first second same
  exact String.toList_inj.mp same

instance {T : Type} [Countable T] : Countable (FieldMap T) := by
  apply Function.Injective.countable (f := Std.ExtTreeMap.toList)
  intro first second same
  exact Std.ExtTreeMap.toList_inj.mp same

deriving instance Countable for Point

/-- Points can be written as bytes and read back. -/
theorem exists_round_trips : ∃ codec : PointsCodec, codec.RoundTrips := by
  obtain ⟨number, injective⟩ := Countable.exists_injective_nat (List Point)
  classical
  refine ⟨⟨fun points => List.replicate (number points) 0, fun data =>
    (Function.invFun number data.length, true)⟩, ?_⟩
  intro points
  dsimp only
  rw [List.length_replicate, Function.leftInverse_invFun injective points]

end Codecs

namespace StreamUdf

variable {State View : Type} (udf : StreamUdf State)
variable (renderScalar : DataType → Value → String) (codec : PointsCodec)

def answers (requests : List StreamRequest) (contents : Contents State) :
    List Response × Option Fault :=
  responsesFrom id contents (udf.handleRequests renderScalar codec requests contents)

/-- The snapshot is answered without a change, a fresh UDF restores it, and goes on as the
other one does. -/
def Resumes (contents : Contents State) : Prop :=
  ∃ snapshot restored,
    (udf.requestHandler renderScalar codec).snapshot contents =
      .ok (.snapshot snapshot) contents ∧
    (udf.requestHandler renderScalar codec).restore snapshot udf.fresh =
      .ok (.restore true "") restored ∧
    ∀ later, udf.answers renderScalar codec later restored =
      udf.answers renderScalar codec later contents

/-- What a fresh UDF has after the snapshot of some contents: the points, and no more. -/
def restored (contents : Contents State) : Contents State :=
  { handler := udf.created, points := contents.points }

variable {codec}

theorem resumes_iff (roundTrips : codec.RoundTrips) (contents : Contents State) :
    udf.Resumes renderScalar codec contents ↔
      ∀ later, udf.answers renderScalar codec later (udf.restored contents) =
        udf.answers renderScalar codec later contents := by
  have parses : PointsStorage.restore codec (codec.serialize contents.points) udf.fresh =
      .ok true (udf.restored contents) := by
    rw [PointsStorage.restore_apply, roundTrips]
    rfl
  have restores : (udf.requestHandler renderScalar codec).restore
      (codec.serialize contents.points) udf.fresh =
        .ok (.restore true "") (udf.restored contents) := by
    change (PointsStorage.restore codec (codec.serialize contents.points) >>= _) udf.fresh = _
    rw [bind_of_ok parses]
    rfl
  constructor
  · rintro ⟨snapshot, after, taken, given, resumes⟩
    obtain rfl : codec.serialize contents.points = snapshot :=
      Response.snapshot.inj (EStateM.Result.ok.inj taken).1
    rw [restores] at given
    rw [(EStateM.Result.ok.inj given).2]
    exact resumes
  · intro resumes
    exact ⟨codec.serialize contents.points, udf.restored contents, rfl, restores, resumes⟩

theorem handle_requests_codec (codec other : PointsCodec) {requests : List StreamRequest}
    (data : ∀ request ∈ requests, request = .flush ∨ ∃ point, request = .point point)
    (contents : Contents State) :
    udf.handleRequests renderScalar codec requests contents =
      udf.handleRequests renderScalar other requests contents := by
  induction requests generalizing contents with
  | nil => rfl
  | cons request rest induction =>
      rw [List.forall_mem_cons] at data
      have same : udf.handleRequest renderScalar codec request =
          udf.handleRequest renderScalar other request := by
        obtain rfl | ⟨point, rfl⟩ := data.1
        · rfl
        · rfl
      change (udf.handleRequest renderScalar codec request >>= fun _ =>
        udf.handleRequests renderScalar codec rest) contents =
          (udf.handleRequest renderScalar other request >>= fun _ =>
            udf.handleRequests renderScalar other rest) contents
      rw [same, bind_apply, bind_apply]
      cases udf.handleRequest renderScalar other request contents with
      | ok value after => exact induction data.2 after
      | error fault after => rfl

variable (codec)

def withHandler (handler : VectorHandler View) (created : View) : StreamUdf View :=
  { udf with handler, created }

section Views

variable {view : State → View} {plain : VectorHandler View}
variable (same : ∀ recordBatches, Over view (udf.handler recordBatches) (plain recordBatches))
variable (created : View) (earlier : List Event)
include same

theorem handle_batch_sees :
    PointsStorage.Sees view earlier (udf.requestHandler renderScalar codec).handleBatch
      ((udf.withHandler plain created).requestHandler renderScalar codec).handleBatch := by
  have stored : Option.Rel (HandlesOver view) (udf.storage renderScalar).handler
      (some ⟨plain⟩) := .some same
  apply over_bind (PointsStorage.handle_batch_logged_sees earlier stored)
  intro _
  exact PointsStorage.clear_sees view earlier

theorem handle_request_sees (request : StreamRequest) :
    PointsStorage.Sees view earlier (udf.handleRequest renderScalar codec request)
      ((udf.withHandler plain created).handleRequest renderScalar codec request) := by
  have batch := udf.handle_batch_sees renderScalar codec same created earlier
  cases request with
  | point point =>
      apply over_bind (PointsStorage.add_point_sees view earlier point)
      intro _
      exact over_ite batch (over_pure _)
  | flush => exact batch
  | snapshot =>
      apply over_bind
      · apply over_get_bind
        intro contents
        exact over_pure _
      · intro response
        exact PointsStorage.note_sees view earlier _
  | restore data =>
      apply over_bind
      · apply over_bind (PointsStorage.restore_sees view earlier codec data)
        intro success
        exact over_pure _
      · intro response
        exact PointsStorage.note_sees view earlier _

theorem handle_requests_sees (requests : List StreamRequest) :
    PointsStorage.Sees view earlier (udf.handleRequests renderScalar codec requests)
      ((udf.withHandler plain created).handleRequests renderScalar codec requests) := by
  induction requests with
  | nil => exact over_pure _
  | cons request rest induction =>
      apply over_bind (udf.handle_request_sees renderScalar codec same created earlier request)
      intro _
      exact induction

theorem answers_seen (requests : List StreamRequest) (contents : Contents State) :
    (udf.withHandler plain created).answers renderScalar codec requests
        (contents.seen view earlier) =
      udf.answers renderScalar codec requests contents := by
  rw [answers, ← udf.handle_requests_sees renderScalar codec same created earlier requests]
  exact responses_from_projected id (fun _ => rfl) contents _

/-- A handler whose state looks as it was created is all that a snapshot leaves out. -/
theorem resumes_of_view {contents : Contents State} (roundTrips : codec.RoundTrips)
    (asCreated : view contents.handler = view udf.created) :
    udf.Resumes renderScalar codec contents := by
  apply (udf.resumes_iff renderScalar roundTrips contents).mpr
  intro later
  rw [← udf.answers_seen renderScalar codec same (view udf.created) contents.events later,
    ← udf.answers_seen renderScalar codec same (view udf.created) [] later contents]
  unfold Contents.seen restored
  rw [asCreated, List.append_nil, List.nil_append]

end Views

end StreamUdf

section Dispatch

variable {State : Type} (pointsConverter : Converter) (createHandler : State)
variable (handle : BatchHandler State) (providesBatch handlesPoints : Bool)
variable (renderScalar : DataType → Value → String) {codec : PointsCodec}

/-- The handler of every group, also of one that has not come, is as the factory creates it. -/
def AllAsCreated (createHandler : State) (groupsStates : GroupsStates State) : Prop :=
  ∀ group, Dispatch.current createHandler groupsStates group = createHandler

theorem dispatch_udf_resumes (roundTrips : codec.RoundTrips)
    {contents : Contents (GroupsStates State)}
    (asCreated : AllAsCreated createHandler contents.handler) :
    (dispatchUdf pointsConverter createHandler handle providesBatch handlesPoints).Resumes
      renderScalar codec contents := by
  have started : ∀ recordBatches, Over (Dispatch.current createHandler)
      ((dispatchUdf pointsConverter createHandler handle providesBatch handlesPoints).handler
        recordBatches)
      (Dispatch.each (Dispatch.dispatchStarted extractGroup handle) recordBatches) :=
    Dispatch.over_each (Dispatch.dispatch_over_started extractGroup createHandler handle)
  apply StreamUdf.resumes_of_view _ renderScalar codec started roundTrips
  funext group
  exact asCreated group

end Dispatch

theorem stream_aggregate_udf_resumes (orders : MapOrders)
    (renderScalar : DataType → Value → String) {codec : PointsCodec}
    (options : Aggregate.AggregateOptions) (tolerance : Int) (roundTrips : codec.RoundTrips)
    {contents : Contents Window.WindowHandler}
    (asCreated : contents.handler = { options := ⟨tolerance + 1, tolerance + 1, true⟩ }) :
    (streamAggregateUdf orders renderScalar options tolerance).Resumes renderScalar codec
      contents := by
  have same : ∀ recordBatches, Over id
      (streamAggregatePipeline orders renderScalar options recordBatches)
      (streamAggregatePipeline orders renderScalar options recordBatches) := fun _ => over_id _
  exact StreamUdf.resumes_of_view _ renderScalar codec same roundTrips asCreated

namespace StatefulUdf

/-- Nothing has happened to the record batch handlers since `init`. -/
def AsCreated : (kind : StatefulUdf) → kind.State → Prop
  | .dynamicWindow options => AllAsCreated { options := options.windowHandlerOptions }
  | .derivative _ _ => AllAsCreated {}
  | .statefulThreshold options => AllAsCreated (Threshold.initialState options)
  | .streamAggregate _ tolerance => fun handler =>
      handler = { options := ⟨tolerance + 1, tolerance + 1, true⟩ }

/-- After any requests that leave the record batch handlers as they were created, a fresh UDF
with the snapshot answers all later requests as the UDF that was never interrupted. -/
theorem untouched_handlers_resume (kind : StatefulUdf) (orders : MapOrders)
    (renderScalar : DataType → Value → String) (codec : PointsCodec)
    (history : List StreamRequest) (contents : Contents kind.State) :
    codec.RoundTrips →
    (kind.init orders renderScalar).handleRequests renderScalar codec history
      (kind.init orders renderScalar).fresh = .ok () contents →
    kind.AsCreated contents.handler →
    (kind.init orders renderScalar).Resumes renderScalar codec contents := by
  intro roundTrips _ asCreated
  cases kind with
  | dynamicWindow options => exact dispatch_udf_resumes _ _ _ _ _ _ roundTrips asCreated
  | derivative calculator options => exact dispatch_udf_resumes _ _ _ _ _ _ roundTrips asCreated
  | statefulThreshold options => exact dispatch_udf_resumes _ _ _ _ _ _ roundTrips asCreated
  | streamAggregate options tolerance =>
      exact stream_aggregate_udf_resumes orders renderScalar options tolerance roundTrips asCreated

def staticWindow : StatefulUdf :=
  .dynamicWindow { windowHandlerOptions := ⟨10, 10, false⟩, emitTimeout := 1 }

def pointAt (second : Int) : Point := { time := second * 1000000000 }

abbrev staticWindowUdf : StreamUdf staticWindow.State :=
  staticWindow.init BatchAggregateRequestHandler.keptOrders fun _ _ => ""

theorem waiting_point_resumes :
    ∃ codec : PointsCodec, staticWindowUdf.Resumes (fun _ _ => "") codec
      { handler := fun _ => none, points := [pointAt 100] } := by
  obtain ⟨codec, roundTrips⟩ := exists_round_trips
  exact ⟨codec, untouched_handlers_resume staticWindow BatchAggregateRequestHandler.keptOrders
    (fun _ _ => "") codec [.point (pointAt 100)] _ roundTrips rfl fun _ => rfl⟩

def emitsLater (earlier later : List StreamRequest) : Option (Nat × Nat) :=
  let codec := BatchAggregateRequestHandler.timesCodec
  match staticWindowUdf.handleRequests (fun _ _ => "") codec earlier staticWindowUdf.fresh with
  | .error _ _ => none
  | .ok _ contents => some
      ((staticWindowUdf.answers (fun _ _ => "") codec later contents).1.length,
        (staticWindowUdf.answers (fun _ _ => "") codec later
          (staticWindowUdf.restored contents)).1.length)

/-- A point that was flushed is in a window buffer, and a later one would have emitted it. -/
theorem flushed_point_is_forgotten :
    ¬∀ (kind : StatefulUdf) (orders : MapOrders) (renderScalar : DataType → Value → String)
      (codec : PointsCodec) (history : List StreamRequest) (contents : Contents kind.State),
      codec.RoundTrips →
      (kind.init orders renderScalar).handleRequests renderScalar codec history
        (kind.init orders renderScalar).fresh = .ok () contents →
      (kind.init orders renderScalar).Resumes renderScalar codec contents := by
  intro claim
  obtain ⟨codec, roundTrips⟩ := exists_round_trips
  have flushes : ∀ second, ∀ request ∈ [StreamRequest.point (pointAt second), .flush],
      request = .flush ∨ ∃ point, request = .point point := by
    intro second request member
    simp only [List.mem_cons, List.not_mem_nil, or_false] at member
    rcases member with rfl | rfl
    · exact .inr ⟨_, rfl⟩
    · exact .inl rfl
  have emits : emitsLater [.point (pointAt 100), .flush] [.point (pointAt 200), .flush] =
      some (3, 0) := by decide +kernel
  unfold emitsLater at emits
  dsimp only at emits
  split at emits
  · cases emits
  · next contents ran =>
    rw [StreamUdf.handle_requests_codec staticWindowUdf _ _ codec (flushes 100)] at ran
    have resumes := (StreamUdf.resumes_iff staticWindowUdf (fun _ _ => "") roundTrips contents).mp
      (claim staticWindow _ _ codec _ contents roundTrips ran)
      [.point (pointAt 200), .flush]
    unfold StreamUdf.answers at resumes emits
    rw [StreamUdf.handle_requests_codec staticWindowUdf _ codec
        BatchAggregateRequestHandler.timesCodec (flushes 200),
      StreamUdf.handle_requests_codec staticWindowUdf _ codec
        BatchAggregateRequestHandler.timesCodec (flushes 200)] at resumes
    rw [resumes, Option.some.injEq, Prod.mk.injEq] at emits
    omega

end StatefulUdf

end StreamDataProcessor.Kapacitor
