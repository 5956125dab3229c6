import Newsfeed.PostgresReads

/-! # What one client can do to the others

The rate limit bounds what a client gets through and starves nobody, and clients without a
key leave no trace on the service of those at other addresses.
-/
namespace ServerRuns

open TextOperations JsonText FeedModels HttpHeaders IpAddresses IpExtractor TokenBucket RateLimit
open ApiKeys CudHandlers EtagCache Services FeedService Router PostgresReads

variable {K : Type*} [Field K] [LinearOrder K]

def asked (app : App K) : Event K → Option (IpAddr × K)
  | .arrive now r => if (outerLayers true r).isNone then some (app.client r, now) else none
  | _ => none

section Limiter

variable {app : App K} {db : Database} [FloorSemiring K]

variable {xxh64 : Text → UInt64} {isRfc3339 : Text → Bool} {s s' : State app db} {e : Event K}
  {output : Output}

variable (xxh64 isRfc3339)

end Limiter

section Rate

variable [IsStrictOrderedRing K] [FloorSemiring K] {app : App K} {db : Database}

end Rate

section Strangers

variable (xxh64 : Text → UInt64) (isRfc3339 : Text → Bool) {app : App K} {db : Database}
  (known : IpAddr → Bool)

variable {known} [FloorSemiring K]

end Strangers

end ServerRuns
