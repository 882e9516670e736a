import WorkloadSpec.Variant.Family

/-!
The optimizers. All have a learning rate and perhaps a name; each has a method
with parameters of its own.
-/
namespace WorkloadSpec

open Variant

inductive Method where
  | sgd
  | momentum (momentum : Double) (useNesterov : Bool)
  | adam (beta1 beta2 epsilon : Double)
  | adagrad (initialAccumulator : Double)
  | rmsProp (decay momentum epsilon : Double)
  deriving DecidableEq

structure Optimizer where
  learningRate : Double
  name : Option String := none
  method : Method
  deriving DecidableEq

namespace Method

def identifier : Method → String
  | sgd => "SGD"
  | momentum _ _ => "Momentum"
  | adam _ _ _ => "Adam"
  | adagrad _ => "Adagrad"
  | rmsProp _ _ _ => "RMSProp"

def parameters : Method → Mapping
  | sgd => []
  | momentum m nesterov => [("momentum", .float m), ("use_nesterov", .bool nesterov)]
  | adam beta1 beta2 epsilon =>
    [("beta1", .float beta1), ("beta2", .float beta2), ("epsilon", .float epsilon)]
  | adagrad initial => [("initial_accumulator_value", .float initial)]
  | rmsProp decay m epsilon =>
    [("decay", .float decay), ("momentum", .float m), ("epsilon", .float epsilon)]

end Method

namespace Optimizer

def toInstance (o : Optimizer) : Instance where
  identifier := o.method.identifier
  fields :=
    [("learning_rate", .float o.learningRate), ("name", Value.ofOption .str o.name)] ++
      o.method.parameters

/-- The shared options, then the parameters of the method. -/
def ofInstance (method : Instance → Except VariantError Method) (i : Instance) :
    Except VariantError Optimizer := do
  let learningRate ← i.double "learning_rate"
  let name ← i.string? "name"
  pure { learningRate, name, method := ← method i }

def float (name : String) (x : Double) : FieldSpec := .defaulted name .float (.float x)

def member (identifier : String) (learningRate : Double) (own : List FieldSpec)
    (method : Instance → Except VariantError Method) : Member Optimizer where
  identifier
  fields :=
    [float "learning_rate" learningRate] ++ own ++
      [{ FieldSpec.optional "name" .str with reduced := true }]
  build := ofInstance method

def family : Family Optimizer where
  name := "optimizer"
  members :=
    [member "SGD" ⟨0.01, by decide⟩ [] fun _ => pure .sgd,
      member "Momentum" ⟨0.001, by decide⟩
        [float "momentum" ⟨0.9, by decide⟩, .defaulted "use_nesterov" .bool (.bool false)]
        fun i => return .momentum (← i.double "momentum") (← i.bool "use_nesterov"),
      member "Adam" ⟨0.001, by decide⟩
        [float "beta1" ⟨0.9, by decide⟩, float "beta2" ⟨0.999, by decide⟩,
          float "epsilon" ⟨1e-8, by decide⟩]
        fun i => return .adam (← i.double "beta1") (← i.double "beta2") (← i.double "epsilon"),
      member "Adagrad" ⟨0.01, by decide⟩ [float "initial_accumulator_value" ⟨0.1, by decide⟩]
        fun i => return .adagrad (← i.double "initial_accumulator_value"),
      member "RMSProp" ⟨0.001, by decide⟩
        [float "decay" ⟨0.9, by decide⟩, float "momentum" .zero, float "epsilon" ⟨1e-10, by decide⟩]
        fun i =>
          return .rmsProp (← i.double "decay") (← i.double "momentum") (← i.double "epsilon")]

/-- The minimal form of an optimizer. -/
def toValue (o : Optimizer) : Value := family.reduce o.toInstance

end Optimizer

end WorkloadSpec
