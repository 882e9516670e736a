import WorkloadSpec.Decode.Codec

/-!
Where a run executes and what it trains with. Both are single names.
-/
namespace WorkloadSpec

inductive Backend where
  | native
  | other
  deriving DecidableEq, Repr

namespace Backend

def name : Backend → String
  | native => "native"
  | other => "other"

def codec : Codec Backend := .choice ([native, other].map fun b => (b.name, b)) name

end Backend

inductive Framework where
  | tensorflow
  | pytorch
  | mxnet
  | horovod
  deriving DecidableEq, Repr

namespace Framework

def name : Framework → String
  | tensorflow => "tensorflow"
  | pytorch => "pytorch"
  | mxnet => "mxnet"
  | horovod => "horovod"

def codec : Codec Framework :=
  .choice ([tensorflow, pytorch, mxnet, horovod].map fun f => (f.name, f)) name

end Framework

end WorkloadSpec
