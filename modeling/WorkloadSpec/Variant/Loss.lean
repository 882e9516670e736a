import WorkloadSpec.Variant.Family

/-!
The losses. All share the options of where they read, how they weigh and what
they are called; some have parameters of their own.
-/
namespace WorkloadSpec

open Variant

inductive LossForm where
  | absoluteDifference
  | meanSquaredError
  | logLoss (epsilon : Double)
  | huberLoss (clip : Double)
  | clippedDeltaLoss (least greatest : Double)
  | softmaxCrossEntropy (labelSmoothing : Double)
  | sigmoidCrossEntropy (labelSmoothing : Double)
  | hingeLoss
  | cosineDistance (dim : Int64)
  | poissonLoss
  | kullbackLeiberDivergence (dim : Int64)
  deriving DecidableEq

structure Loss where
  form : LossForm
  /-- Where the true values come from, if not from the labels. -/
  inputLayer : Option Tensor := none
  /-- Where the prediction comes from, if not from the last layer. -/
  outputLayer : Option Tensor := none
  weights : Double
  name : Option String := none
  /-- Whether the loss joins the collection of losses. -/
  collect : Bool := true
  deriving DecidableEq

namespace LossForm

def identifier : LossForm → String
  | absoluteDifference => "AbsoluteDifference"
  | meanSquaredError => "MeanSquaredError"
  | logLoss _ => "LogLoss"
  | huberLoss _ => "HuberLoss"
  | clippedDeltaLoss _ _ => "ClippedDeltaLoss"
  | softmaxCrossEntropy _ => "SoftmaxCrossEntropy"
  | sigmoidCrossEntropy _ => "SigmoidCrossEntropy"
  | hingeLoss => "HingeLoss"
  | cosineDistance _ => "CosineDistance"
  | poissonLoss => "PoissonLoss"
  | kullbackLeiberDivergence _ => "KullbackLeiberDivergence"

def parameters : LossForm → Mapping
  | logLoss epsilon => [("epsilon", .float epsilon)]
  | huberLoss clip => [("clip", .float clip)]
  | clippedDeltaLoss least greatest =>
    [("clip_value_min", .float least), ("clip_value_max", .float greatest)]
  | softmaxCrossEntropy labelSmoothing | sigmoidCrossEntropy labelSmoothing =>
    [("label_smoothing", .float labelSmoothing)]
  | cosineDistance dim | kullbackLeiberDivergence dim => [("dim", .int dim.toInt)]
  | _ => []

end LossForm

namespace Loss

def toInstance (loss : Loss) : Instance where
  identifier := loss.form.identifier
  fields :=
    [("input_layer", Value.ofOption Tensor.toValue loss.inputLayer),
      ("output_layer", Value.ofOption Tensor.toValue loss.outputLayer),
      ("weights", .float loss.weights), ("name", Value.ofOption .str loss.name),
      ("collect", .bool loss.collect)] ++ loss.form.parameters

/-- The shared options, then the parameters of the form. -/
def ofInstance (form : Instance → Except VariantError LossForm) (i : Instance) :
    Except VariantError Loss := do
  let inputLayer ← i.tensor? "input_layer"
  let outputLayer ← i.tensor? "output_layer"
  let weights ← i.double "weights"
  let name ← i.string? "name"
  let collect ← i.bool "collect"
  pure { form := ← form i, inputLayer, outputLayer, weights, name, collect }

/-- The fields of a loss with parameters of its own, and perhaps a name. -/
def fields (own : List FieldSpec) (name : Value) : List FieldSpec :=
  [{ FieldSpec.optional "input_layer" .tensor with reduced := true },
    { FieldSpec.optional "output_layer" .tensor with reduced := true },
    .defaulted "weights" .float (.float (Double.ofInt 1))] ++ own ++
  [{ FieldSpec.defaulted "name" .str name with reduced := true },
    .defaulted "collect" .bool (.bool true)]

def member (identifier : String) (own : List FieldSpec)
    (form : Instance → Except VariantError LossForm) : Member Loss :=
  { identifier, fields := fields own .null, build := ofInstance form }

def float (name : String) (x : Double) : FieldSpec := .defaulted name .float (.float x)

def family : Family Loss where
  name := "loss"
  members :=
    [member "AbsoluteDifference" [] fun _ => pure .absoluteDifference,
      member "MeanSquaredError" [] fun _ => pure .meanSquaredError,
      member "LogLoss" [float "epsilon" ⟨1e-7, by decide⟩]
        fun i => return .logLoss (← i.double "epsilon"),
      member "HuberLoss" [float "clip" .zero] fun i => return .huberLoss (← i.double "clip"),
      member "ClippedDeltaLoss"
        [float "clip_value_min" (.ofInt (-1)), float "clip_value_max" (.ofInt 1)]
        fun i =>
          return .clippedDeltaLoss (← i.double "clip_value_min") (← i.double "clip_value_max"),
      member "SoftmaxCrossEntropy" [float "label_smoothing" .zero]
        fun i => return .softmaxCrossEntropy (← i.double "label_smoothing"),
      member "SigmoidCrossEntropy" [float "label_smoothing" .zero]
        fun i => return .sigmoidCrossEntropy (← i.double "label_smoothing"),
      member "HingeLoss" [] fun _ => pure .hingeLoss,
      member "CosineDistance" [.required "dim" .int]
        fun i => return .cosineDistance (← i.int64 "dim"),
      member "PoissonLoss" [] fun _ => pure .poissonLoss,
      { identifier := "KullbackLeiberDivergence"
        fields := fields [.required "dim" .int] (.str "KullbackLeiberDivergence")
        build := ofInstance fun i => return .kullbackLeiberDivergence (← i.int64 "dim") }]

/-- The minimal form of a loss. -/
def toValue (loss : Loss) : Value := family.reduce loss.toInstance

end Loss

end WorkloadSpec
