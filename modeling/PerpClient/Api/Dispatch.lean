import PerpClient.Api.Cache
import PerpClient.Api.Tracked
import PerpClient.Api.Resolver
import PerpClient.Api.Store
import PerpClient.Api.Build
import PerpClient.Api.Loader
import PerpClient.Api.Session
import PerpClient.Api.Rpc
/-!
# Requests by operation

`answer` reads the `op` of a request and answers it; an unknown operation, like any malformed
request, is answered with `badInput`.
-/

namespace PerpClient.Api

open Json

/-- The answer to one request. -/
def answer (v : Value) : Value :=
  let result : Option Value :=
    match (v.field? "op").bind Value.str? with
    | some "decode" => decodeOp v
    | some "encode" => encodeOp v
    | some "decode_name" => decodeNameOp v
    | some "address" => addressOp v
    | some "constants" => some constantsOp
    | some "backoff" => backoffOp v
    | some "compute_units" => computeUnitsOp v
    | some "cu_limit" => cuLimitOp v
    | some "error" => errorOp v
    | some "cache" => cacheOp v
    | some "tracked" => trackedOp v
    | some "resolver" => resolverOp v
    | some "store" => storeOp v
    | some "build" => buildOp v
    | some "loader" => loaderOp v
    | some "sdk" => sessionOp v
    | some "rpc" => rpcOp v
    | _ => none
  result.getD badInput

end PerpClient.Api
