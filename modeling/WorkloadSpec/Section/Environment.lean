import WorkloadSpec.Decode.Record

/-!
The environment section: what a run asks of the cluster, where it is scheduled
and what is mounted. Names and shapes are checked; selectors, affinities and
tolerations are kept as they are.
-/
namespace WorkloadSpec

/-- Requests and limits for one resource. -/
structure Quota where
  requests : Option Double := none
  limits : Option Double := none
  deriving DecidableEq

def Quota.record : Record Quota where
  title := "K8sResources"
  blank := {}
  fields :=
    [.optional "requests" .double requests fun s x => { s with requests := x },
      .optional "limits" .double limits fun s x => { s with limits := x }]

structure Resources where
  cpu : Option Quota := none
  /-- In megabytes. -/
  memory : Option Quota := none
  gpu : Option Quota := none
  tpu : Option Quota := none
  deriving DecidableEq

def Resources.record : Record Resources where
  title := "ResourcesConfig"
  blank := {}
  fields :=
    [.optional "cpu" Quota.record.codec cpu fun s x => { s with cpu := x },
      .optional "memory" Quota.record.codec memory fun s x => { s with memory := x },
      .optional "gpu" Quota.record.codec gpu fun s x => { s with gpu := x },
      .optional "tpu" Quota.record.codec tpu fun s x => { s with tpu := x }]

/-- Volumes mounted by name. -/
structure Persistence where
  data : List String := []
  outputs : Option String := none
  deriving DecidableEq

def Persistence.record : Record Persistence where
  title := "PersistenceConfig"
  blank := {}
  fields :=
    [.many "data" .string data fun s x => { s with data := x },
      .optional "outputs" .string outputs fun s x => { s with outputs := x }]

/-- Results of earlier runs that are made available. -/
structure Outputs where
  jobs : List Value := []
  experiments : List Value := []

def Outputs.record : Record Outputs where
  title := "OutputsConfig"
  blank := {}
  fields :=
    [.many "jobs" .value jobs fun s x => { s with jobs := x },
      .many "experiments" .value experiments fun s x => { s with experiments := x }]

structure Environment where
  resources : Option Resources := none
  nodeSelector : Option Mapping := none
  affinity : Option Mapping := none
  tolerations : List Mapping := []
  persistence : Option Persistence := none
  outputs : Option Outputs := none
  secretRefs : List String := []
  configmapRefs : List String := []

namespace Environment

def record : Record Environment where
  title := "EnvironmentConfig"
  blank := {}
  fields :=
    [.optional "resources" Resources.record.codec resources fun s x => { s with resources := x },
      .optional "node_selector" .mapping nodeSelector fun s x => { s with nodeSelector := x },
      .optional "affinity" .mapping affinity fun s x => { s with affinity := x },
      .many "tolerations" .mapping tolerations fun s x => { s with tolerations := x },
      .optional "persistence" Persistence.record.codec persistence
        fun s x => { s with persistence := x },
      .optional "outputs" Outputs.record.codec outputs fun s x => { s with outputs := x },
      .many "secret_refs" .string secretRefs fun s x => { s with secretRefs := x },
      .many "configmap_refs" .string configmapRefs fun s x => { s with configmapRefs := x }]

def codec : Codec Environment := record.codec

/-- How many GPUs a run may use: the limit, or else the request. -/
def gpus (e : Environment) : Option Double := do
  let gpu ← (← e.resources).gpu
  gpu.limits <|> gpu.requests

end Environment

end WorkloadSpec
