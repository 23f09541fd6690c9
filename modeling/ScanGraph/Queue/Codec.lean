/-
Requests for jobs as JSON.

A request is a job with the time at which it was queued and the id of its chain, if it
has one.
-/
import ScanGraph.Queue
import ScanGraph.Job.Codec

namespace ScanGraph

open Json Record

def Request.toJson (r : Request) : Json :=
  .obj [("payload", r.job.toJson), ("requested_at", r.requestedAt.toJson),
    ("correlation_id", orNull Uuid.toJson r.correlation)]

def Request.decoder : Decoder Request :=
  (Request.mk <$> field "payload" Job.decoder <*> field "requested_at" Instant.decoder
    <*> optionalOr "correlation_id" Uuid.decoder).decode

end ScanGraph
