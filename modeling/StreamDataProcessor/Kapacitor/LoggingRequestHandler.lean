import StreamDataProcessor.Kapacitor.UdfAgent

/-!
# A handler that logs and mirrors points

`LoggingRequestHandler`, whose state is what it has written to its logging stream.
`SerializeAsString` of a point is a parameter.
-/

namespace StreamDataProcessor.Kapacitor.LoggingRequestHandler

open Arrow Utils.Uvarint RequestReader UdfAgent

set_option autoImplicit false

variable (serializePoint : Point → Bytes) (isLogging : Bool)

def point (point : Point) (loggingStream : Bytes) : Left Bytes Unit :=
  let loggingStream :=
    if isLogging then loggingStream ++ writeWithUvarintLength (serializePoint point)
    else loggingStream
  ⟨loggingStream, [.response (.point point)], .ok ()⟩

def requestHandler : RequestHandler Bytes where
  info loggingStream :=
    ⟨loggingStream, [], .ok (.info { wants := .stream, provides := .stream })⟩
  init _ loggingStream := ⟨loggingStream, [], .ok (.init true "")⟩
  snapshot loggingStream := ⟨loggingStream, [], .ok (.response (.snapshot []))⟩
  restore _ loggingStream := ⟨loggingStream, [], .ok (.response (.restore true ""))⟩
  beginBatch _ loggingStream :=
    ⟨loggingStream,
      [.response (.error "Invalid BeginBatch request, UDF wants stream data")], .ok ()⟩
  point := point serializePoint isLogging
  endBatch _ loggingStream :=
    ⟨loggingStream,
      [.response (.error "Invalid EndBatch request, UDF wants stream data")], .ok ()⟩
  tick loggingStream := ⟨loggingStream, [], .ok ()⟩
  stop loggingStream := ⟨loggingStream, [], .ok ()⟩

end StreamDataProcessor.Kapacitor.LoggingRequestHandler
