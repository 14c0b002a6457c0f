import SkidMonitor.Agent.Exporter
import SkidMonitor.Lib.Fallible
import SkidMonitor.Lib.SortedMap

/-! The signal pipelines of the agent: what a configuration is checked for, and what becomes of a
signal that a receiver hands in. -/
namespace SkidMonitor.Pipeline

open Fallible List

structure OtlpAuthConfig where
  tokenUrl : Str
  clientId : Str
  clientSecretEnv : Str
  sequenceStatePath : Str
  scope : Option Str
  deriving DecidableEq

inductive ExporterConfig where
  | skidClient (addr : Option Str)
  | logging (includeJson : Bool)
  | otlp (endpoint : Str) (auth : Option OtlpAuthConfig)
  deriving DecidableEq

inductive ProcessorConfig where
  | batch
  deriving DecidableEq

structure PipelineConfig where
  receivers : List Str
  processors : List Str
  exporters : List Str
  deriving DecidableEq

structure PipelinesConfig where
  metrics : PipelineConfig
  traces : PipelineConfig
  logs : PipelineConfig
  deriving DecidableEq

structure DatabaseLogSourceConfig where
  system : Str
  path : Str
  deriving DecidableEq

structure DatabaseLogsReceiverConfig where
  enabled : Bool
  maxLineBytes : ℕ
  maxReadBytes : ℕ
  sources : List DatabaseLogSourceConfig
  deriving DecidableEq

structure AgentConfig where
  databaseLogs : DatabaseLogsReceiverConfig
  processors : SortedMap Str ProcessorConfig
  exporters : SortedMap Str ExporterConfig
  pipelines : PipelinesConfig

structure Url where
  scheme : Str
  host : Option Str
  username : Str
  password : Option Str
  fragment : Option Str
  deriving DecidableEq

/-- What the libraries make of texts: URLs, the last part of a path, and texts in quotes. -/
structure Texts where
  parseUrl : Str → Option Url
  fileName : Str → Option Str
  debug : Str → Str

inductive ConfigError where
  | validate (message : Str)
  deriving DecidableEq

def check (bad : Bool) (message : Str) : Except ConfigError Unit :=
  if bad then .error (.validate message) else .ok ()

section Validation

variable (texts : Texts)

/-- Not an HTTPS URL with a host, or one with credentials or a fragment. -/
def Url.unfit (url : Url) : Bool :=
  url.scheme ≠ "https".toList || url.host.isNone || !url.username.isEmpty ||
    url.password.isSome || url.fragment.isSome

def validateOtlpAuth (exporterName endpoint : Str) (auth : OtlpAuthConfig) :
    Except ConfigError Unit := do
  let exporter := "exporter ".toList ++ texts.debug exporterName
  check (Text.trim auth.clientId).isEmpty (exporter ++ " has an empty OAuth client_id".toList)
  check ((Text.trim auth.clientSecretEnv).isEmpty || auth.clientSecretEnv.contains '=' ||
    auth.clientSecretEnv.contains '\x00')
    (exporter ++ " has an invalid OAuth client_secret_env".toList)
  check (auth.sequenceStatePath.isEmpty || (texts.fileName auth.sequenceStatePath).isNone)
    (exporter ++ " has an invalid sequence_state_path".toList)
  check (auth.scope.any fun scope => (Text.trim scope).isEmpty)
    (exporter ++ " has an empty OAuth scope".toList)
  let tokenUrl ← orError (.validate (exporter ++ " has an invalid OAuth token_url".toList))
    (texts.parseUrl (Text.trim auth.tokenUrl))
  check tokenUrl.unfit (exporter ++
    " OAuth token_url must be an HTTPS URL without credentials or a fragment".toList)
  let endpointUrl ← orError (.validate (exporter ++
    " authenticated OTLP endpoint must be a valid HTTPS URL".toList))
    (texts.parseUrl (Text.trim endpoint))
  check endpointUrl.unfit (exporter ++
    " authenticated OTLP endpoint must use HTTPS without credentials or a fragment".toList)

def receiverNames : List Str :=
  ["self_observation".toList, "device".toList, "otlp".toList, "database_logs".toList]

/-- What the check of a pipeline says about a name that it does not know. -/
def unknownName (signal : Str) (what : String) (name : Str) : Str :=
  signal ++ " pipeline references unknown ".toList ++ what.toList ++ ' ' :: texts.debug name

def validatePipeline (signal : Str) (pipeline : PipelineConfig) (config : AgentConfig) :
    Except ConfigError Unit := do
  check pipeline.exporters.isEmpty (signal ++ " pipeline must have at least one exporter".toList)
  pipeline.receivers.forM fun receiver =>
    check (!receiverNames.contains receiver) (unknownName texts signal "receiver" receiver)
  pipeline.processors.forM fun processor =>
    check (config.processors.lookup processor).isNone
      (unknownName texts signal "processor" processor)
  pipeline.exporters.forM fun exporter =>
    check (config.exporters.lookup exporter).isNone (unknownName texts signal "exporter" exporter)

def validateExporter (name : Str) : ExporterConfig → Except ConfigError Unit
  | .otlp endpoint auth => do
    check (Text.trim endpoint).isEmpty
      ("exporter ".toList ++ texts.debug name ++ " has an empty OTLP endpoint".toList)
    match auth with
    | some auth => validateOtlpAuth texts name endpoint auth
    | none => .ok ()
  | _ => .ok ()

def validateSource (index : ℕ) (source : DatabaseLogSourceConfig) : Except ConfigError Unit := do
  let place := "database_logs source ".toList ++ Numeral.print index
  check (Text.trim source.system).isEmpty (place ++ " has an empty system".toList)
  check source.path.isEmpty (place ++ " has an empty path".toList)

def AgentConfig.validate (config : AgentConfig) : Except ConfigError Unit := do
  check config.exporters.entries.isEmpty "at least one exporter must be configured".toList
  validatePipeline texts "metrics".toList config.pipelines.metrics config
  validatePipeline texts "traces".toList config.pipelines.traces config
  validatePipeline texts "logs".toList config.pipelines.logs config
  config.exporters.entries.forM fun entry => validateExporter texts entry.1 entry.2
  check (config.databaseLogs.enabled && config.databaseLogs.sources.isEmpty)
    "database_logs receiver is enabled but has no sources".toList
  check (config.databaseLogs.maxLineBytes > 16 * 1024 * 1024)
    "database_logs max_line_bytes must not exceed 16 MiB".toList
  check (config.databaseLogs.maxReadBytes > 64 * 1024 * 1024)
    "database_logs max_read_bytes must not exceed 64 MiB".toList
  config.databaseLogs.sources.zipIdx.forM fun entry => validateSource entry.2 entry.1

end Validation

inductive ReceiverKind where
  | selfObservation
  | device
  | otlp
  | databaseLogs
  deriving DecidableEq

def ReceiverKind.asStr : ReceiverKind → Str
  | .selfObservation => "self_observation".toList
  | .device => "device".toList
  | .otlp => "otlp".toList
  | .databaseLogs => "database_logs".toList

/-- An exporter at work; those for OTLP are of a type `ω`. -/
inductive RuntimeExporter (ω : Type) where
  | skidClient (addr : Option Str)
  | logging (includeJson : Bool)
  | otlp (exporter : ω)
  deriving DecidableEq

structure RequiredExporterFailure where
  exporter : Str
  message : Str
  deriving DecidableEq

structure PipelineExportError where
  receiver : ReceiverKind
  signalKind : SignalKind
  failures : List RequiredExporterFailure
  deriving DecidableEq

/-- A call of `export_one`, and how it ended. -/
structure Handed (ω : Type) where
  name : Str
  exporter : RuntimeExporter ω
  signal : Signal
  outcome : Except Str Unit

structure SignalPipeline (ω : Type) where
  processors : SortedMap Str ProcessorConfig
  pipelines : PipelinesConfig
  exporters : SortedMap Str (RuntimeExporter ω)

/-- What a call of `export` does: the processors it warns of, the exporters it hands the signal to,
and what it returns. -/
structure Exported (ω : Type) where
  missingProcessors : List Str
  handed : List (Handed ω)
  result : Except PipelineExportError Unit

def PipelinesConfig.pipelineFor (pipelines : PipelinesConfig) : Signal → PipelineConfig
  | .metrics _ => pipelines.metrics
  | .traces _ => pipelines.traces
  | .logs _ => pipelines.logs

section Runtime

variable {ω : Type} (texts : Texts) (newOtlp : Str → Option OtlpAuthConfig → Except Str ω)

def runtimeExporter (name : Str) : ExporterConfig → Except Str (RuntimeExporter ω)
  | .skidClient addr => .ok (.skidClient addr)
  | .logging includeJson => .ok (.logging includeJson)
  | .otlp endpoint auth => do
    let exporter ← (newOtlp endpoint auth).mapError fun error =>
      "initialize OTLP exporter ".toList ++ texts.debug name ++ ": ".toList ++ error
    return .otlp exporter

def exportersFromConfig (config : AgentConfig) : Except Str (SortedMap Str (RuntimeExporter ω)) :=
  config.exporters.entries.foldlM (fun inner entry => do
    let runtime ← runtimeExporter texts newOtlp entry.1 entry.2
    return inner.insert entry.1 runtime) .empty

def SignalPipeline.fromConfig (config : AgentConfig) : Except Str (SignalPipeline ω) := do
  let exporters ← exportersFromConfig texts newOtlp config
  return ⟨config.processors, config.pipelines, exporters⟩

namespace SignalPipeline

variable (p : SignalPipeline ω)

/-- The processors leave the signal as it is; one that is missing is warned of. -/
def applyProcessor (name : Str) (signal : Signal) : Signal × List Str :=
  match p.processors.lookup name with
  | some .batch => (signal, [])
  | none => (signal, [name])

/-- `SignalExporters::export`, where `export_one` would answer so. -/
def exportTo (answer : Except Str Unit) (name : Str) (signal : Signal) :
    List (Handed ω) × Except RequiredExporterFailure Unit :=
  match p.exporters.lookup name with
  | none => ([], .error ⟨name, "pipeline references a missing exporter".toList⟩)
  | some exporter => ([⟨name, exporter, signal, answer⟩], answer.mapError (⟨name, ·⟩))

/-- The loop over the exporters: calls and failures are collected. -/
def exportStep (answers : ℕ → Except Str Unit) (signal : Signal)
    (done : List (Handed ω) × List RequiredExporterFailure) (entry : Str × ℕ) :
    List (Handed ω) × List RequiredExporterFailure :=
  match p.exportTo (answers entry.2) entry.1 signal with
  | (handed, .ok ()) => (done.1 ++ handed, done.2)
  | (handed, .error failure) => (done.1 ++ handed, done.2 ++ [failure])

local instance : LawfulBEq Str := inferInstanceAs (LawfulBEq (List Char))

/-- The call of `export_one` for the `i`-th exporter of the list ends as `answers i` says. -/
def exportSignal (receiver : ReceiverKind) (signal : Signal) (answers : ℕ → Except Str Unit) :
    Exported ω :=
  let pipeline := p.pipelines.pipelineFor signal
  if receiver.asStr ∉ pipeline.receivers then ⟨[], [], .ok ()⟩
  else
    let processed := pipeline.processors.foldl (fun done name =>
      let next := p.applyProcessor name done.1
      (next.1, done.2 ++ next.2)) (signal, [])
    let done := pipeline.exporters.zipIdx.foldl (p.exportStep answers processed.1) ([], [])
    ⟨processed.2, done.1,
      if done.2.isEmpty then .ok () else .error ⟨receiver, signal.kind, done.2⟩⟩

end SignalPipeline

end Runtime

section Checked

variable {texts : Texts} {config : AgentConfig} {signal : Str} {pipeline : PipelineConfig}

theorem check_ok {bad : Bool} {message : Str} (h : check bad message = .ok ()) : bad = false := by
  cases bad with
  | false => rfl
  | true => cases h

theorem validatePipeline_ok (h : validatePipeline texts signal pipeline config = .ok ()) :
    (∀ name ∈ pipeline.processors, (config.processors.lookup name).isSome) ∧
      ∀ name ∈ pipeline.exporters, (config.exporters.lookup name).isSome := by
  unfold validatePipeline at h
  obtain ⟨_, _, h⟩ := bind_ok h
  obtain ⟨_, _, h⟩ := bind_ok h
  obtain ⟨_, hprocessors, hexporters⟩ := bind_ok h
  constructor
  · intro name hname
    exact Option.isSome_iff_ne_none.mpr fun hnone => by
      have hcheck := check_ok (forM_ok_iff.mp hprocessors name hname)
      rw [hnone] at hcheck
      cases hcheck
  · intro name hname
    exact Option.isSome_iff_ne_none.mpr fun hnone => by
      have hcheck := check_ok (forM_ok_iff.mp hexporters name hname)
      rw [hnone] at hcheck
      cases hcheck

/-- Each pipeline of a configuration that was accepted has been checked. -/
theorem validate_ok (h : config.validate texts = .ok ()) (signal : Signal) :
    ∃ name, validatePipeline texts name (config.pipelines.pipelineFor signal) config = .ok () := by
  unfold AgentConfig.validate at h
  obtain ⟨_, _, h⟩ := bind_ok h
  obtain ⟨_, hmetrics, h⟩ := bind_ok h
  obtain ⟨_, htraces, h⟩ := bind_ok h
  obtain ⟨_, hlogs, _⟩ := bind_ok h
  cases signal with
  | metrics _ => exact ⟨_, hmetrics⟩
  | traces _ => exact ⟨_, htraces⟩
  | logs _ => exact ⟨_, hlogs⟩

end Checked

section Built

variable {ω : Type} {texts : Texts} {newOtlp : Str → Option OtlpAuthConfig → Except Str ω}
  {config : AgentConfig} {p : SignalPipeline ω}

/-- A fold that enters one value for each entry enters it under the key of the entry. -/
theorem foldlM_insert {α β : Type} {f : Str → α → Except Str β} {entries : List (Str × α)}
    {m m' : SortedMap Str β} (hkeys : (entries.map Prod.fst).Nodup)
    (h : entries.foldlM (fun inner entry => do
      let value ← f entry.1 entry.2
      return inner.insert entry.1 value) m = .ok m') (name : Str) :
    (∀ a, (name, a) ∈ entries → ∃ b, m'.lookup name = some b ∧ f name a = .ok b) ∧
      (name ∉ entries.map Prod.fst → m'.lookup name = m.lookup name) := by
  induction entries generalizing m with
  | nil =>
    cases h
    exact ⟨nofun, fun _ => rfl⟩
  | cons entry entries ih =>
    obtain ⟨hnew, hrest⟩ := nodup_cons.mp hkeys
    rw [foldlM_cons] at h
    obtain ⟨next, hnext, h⟩ := bind_ok h
    obtain ⟨value, hvalue, hinsert⟩ := bind_ok hnext
    cases hinsert
    obtain ⟨hmem, hother⟩ := ih hrest h
    constructor
    · intro a ha
      rcases mem_cons.mp ha with rfl | ha
      · exact ⟨value, (hother hnew).trans SortedMap.lookup_insert_self, hvalue⟩
      · exact hmem a ha
    · intro hname
      rw [map_cons, mem_cons, not_or] at hname
      rw [hother hname.2, SortedMap.lookup_insert_of_ne hname.1]

theorem fromConfig_ok (h : SignalPipeline.fromConfig texts newOtlp config = .ok p) :
    p.processors = config.processors ∧ p.pipelines = config.pipelines ∧
      ∀ name exporter, config.exporters.lookup name = some exporter →
        ∃ runtime, p.exporters.lookup name = some runtime ∧
          runtimeExporter texts newOtlp name exporter = .ok runtime := by
  obtain ⟨exporters, hexporters, hp⟩ := bind_ok h
  cases hp
  refine ⟨rfl, rfl, fun name exporter hname => ?_⟩
  exact (foldlM_insert config.exporters.keys_nodup hexporters name).1 exporter
    (SortedMap.mem_entries.mpr hname)

end Built

section Delivery

variable {ω : Type} {p : SignalPipeline ω} {answers : ℕ → Except Str Unit} {signal : Signal}
  {names : List Str}

theorem processors_present (h : ∀ name ∈ names, (p.processors.lookup name).isSome)
    (missing : List Str) : names.foldl (fun done name =>
      let next := p.applyProcessor name done.1
      (next.1, done.2 ++ next.2)) (signal, missing) = (signal, missing) := by
  induction names with
  | nil => rfl
  | cons name names ih =>
    obtain ⟨hname, hnames⟩ := forall_mem_cons.mp h
    obtain ⟨processor, hprocessor⟩ := Option.isSome_iff_exists.mp hname
    have hstep : p.applyProcessor name signal = (signal, []) := by
      rw [SignalPipeline.applyProcessor, hprocessor]
    rw [foldl_cons]
    simp only [hstep, append_nil]
    exact ih hnames

def Handed.failure (call : Handed ω) : Option RequiredExporterFailure :=
  match call.outcome with
  | .ok () => none
  | .error message => some ⟨call.name, message⟩

theorem Handed.failure_eq_some {call : Handed ω} {failure : RequiredExporterFailure} :
    call.failure = some failure ↔
      call.name = failure.exporter ∧ call.outcome = .error failure.message := by
  obtain ⟨name, exporter, signal, outcome⟩ := call
  obtain ⟨exporter', message'⟩ := failure
  cases outcome <;> simp [Handed.failure]

theorem Handed.failure_eq_none {call : Handed ω} :
    call.failure = none ↔ call.outcome = .ok () := by
  obtain ⟨name, exporter, signal, outcome⟩ := call
  cases outcome <;> simp [Handed.failure]

/-- One step of the loop for an exporter that is there. -/
theorem exportStep_present {name : Str} {i : ℕ} {exporter : RuntimeExporter ω}
    (h : p.exporters.lookup name = some exporter)
    (done : List (Handed ω) × List RequiredExporterFailure) :
    p.exportStep answers signal done (name, i) =
      (done.1 ++ [⟨name, exporter, signal, answers i⟩],
        done.2 ++ (Handed.failure ⟨name, exporter, signal, answers i⟩).toList) := by
  simp only [SignalPipeline.exportStep, SignalPipeline.exportTo, h]
  cases answers i with
  | ok | error => simp [Except.mapError, Handed.failure]

/-- The loop hands the signal to the exporters in their order, whatever they answer. -/
theorem exporters_present (answers : ℕ → Except Str Unit) (signal : Signal)
    {entries : List (Str × ℕ)} (h : ∀ entry ∈ entries, (p.exporters.lookup entry.1).isSome)
    (done : List (Handed ω) × List RequiredExporterFailure) : ∃ handed : List (Handed ω),
      entries.foldl (p.exportStep answers signal) done =
        (done.1 ++ handed, done.2 ++ handed.filterMap Handed.failure) ∧
      handed.map Handed.name = entries.map Prod.fst ∧
      handed.map Handed.outcome = entries.map (fun entry => answers entry.2) ∧
      ∀ call ∈ handed, call.signal = signal ∧ p.exporters.lookup call.name = some call.exporter := by
  induction entries generalizing done with
  | nil => exact ⟨[], by simp, rfl, rfl, nofun⟩
  | cons entry entries ih =>
    obtain ⟨hentry, hentries⟩ := forall_mem_cons.mp h
    obtain ⟨exporter, hexporter⟩ := Option.isSome_iff_exists.mp hentry
    obtain ⟨handed, hfold, hnames, houtcomes, hcalls⟩ := ih hentries
      (p.exportStep answers signal done entry)
    refine ⟨⟨entry.1, exporter, signal, answers entry.2⟩ :: handed, ?_, ?_, ?_, ?_⟩
    · rw [foldl_cons, hfold, exportStep_present hexporter, filterMap_cons]
      cases (Handed.failure ⟨entry.1, exporter, signal, answers entry.2⟩ :
        Option RequiredExporterFailure) <;> simp
    · rw [map_cons, hnames, map_cons]
    · rw [map_cons, houtcomes, map_cons]
    · exact forall_mem_cons.mpr ⟨⟨rfl, hexporter⟩, hcalls⟩

end Delivery

/-- Every exporter in the list was handed the signal, in the order of the list and whatever the
others answered, and the result tells of the ones that failed. -/
structure Attempted {ω : Type} (texts : Texts)
    (newOtlp : Str → Option OtlpAuthConfig → Except Str ω) (config : AgentConfig)
    (receiver : ReceiverKind) (signal : Signal) (answers : ℕ → Except Str Unit)
    (x : Exported ω) : Prop where
  processors : x.missingProcessors = []
  named : x.handed.map Handed.name = (config.pipelines.pipelineFor signal).exporters
  answered : x.handed.map Handed.outcome =
    (List.range (config.pipelines.pipelineFor signal).exporters.length).map answers
  exporters : ∀ call ∈ x.handed, call.signal = signal ∧
    ∃ exporter, config.exporters.lookup call.name = some exporter ∧
      runtimeExporter texts newOtlp call.name exporter = .ok call.exporter
  ok : x.result = .ok () ↔ ∀ call ∈ x.handed, call.outcome = .ok ()
  failed : ∀ error, x.result = .error error →
    error.receiver = receiver ∧ error.signalKind = signal.kind ∧
    ∀ failure, failure ∈ error.failures ↔ ∃ call ∈ x.handed,
      call.name = failure.exporter ∧ call.outcome = .error failure.message

section Attempted

variable {ω : Type} {texts : Texts} {newOtlp : Str → Option OtlpAuthConfig → Except Str ω}
  {config : AgentConfig} {p : SignalPipeline ω} {receiver : ReceiverKind} {signal : Signal}

theorem attempted (hvalid : config.validate texts = .ok ())
    (hp : SignalPipeline.fromConfig texts newOtlp config = .ok p)
    (hlisted : receiver.asStr ∈ (config.pipelines.pipelineFor signal).receivers)
    (answers : ℕ → Except Str Unit) :
    Attempted texts newOtlp config receiver signal answers
      (p.exportSignal receiver signal answers) := by
  obtain ⟨hprocessors, hpipelines, hbuilt⟩ := fromConfig_ok hp
  obtain ⟨_, hchecked⟩ := validate_ok hvalid signal
  obtain ⟨hknown, hnames⟩ := validatePipeline_ok hchecked
  set pipeline := config.pipelines.pipelineFor signal with hpipeline
  rw [← hprocessors] at hknown
  have hpresent : ∀ entry ∈ pipeline.exporters.zipIdx, (p.exporters.lookup entry.1).isSome := by
    intro entry hentry
    have hmem : entry.1 ∈ pipeline.exporters := by
      rw [← zipIdx_map_fst 0 pipeline.exporters]
      exact mem_map_of_mem hentry
    obtain ⟨exporter, hexporter⟩ := Option.isSome_iff_exists.mp (hnames _ hmem)
    obtain ⟨runtime, hruntime, _⟩ := hbuilt _ exporter hexporter
    rw [hruntime]
    rfl
  obtain ⟨handed, hfold, hnamed, hanswered, hcalls⟩ :=
    exporters_present answers signal hpresent ([], [])
  have hexport : p.exportSignal receiver signal answers = ⟨[], handed,
      if (handed.filterMap Handed.failure).isEmpty then .ok ()
      else .error ⟨receiver, signal.kind, handed.filterMap Handed.failure⟩⟩ := by
    simp only [SignalPipeline.exportSignal, hpipelines, ← hpipeline, hlisted, not_true_eq_false,
      if_false, processors_present hknown, hfold, nil_append]
  have hempty : (handed.filterMap Handed.failure).isEmpty = true ↔
      ∀ call ∈ handed, call.outcome = .ok () := by
    rw [List.isEmpty_iff, filterMap_eq_nil_iff]
    exact forall₂_congr fun call _ => Handed.failure_eq_none
  rw [hexport]
  refine ⟨rfl, ?_, ?_, ?_, ?_, ?_⟩
  · rw [hnamed, zipIdx_map_fst]
  · rw [hanswered, range_eq_range', ← zipIdx_map_snd 0, map_map]
    rfl
  · intro call hcall
    obtain ⟨hsignal, hruntime⟩ := hcalls call hcall
    have hmem : call.name ∈ pipeline.exporters := by
      rw [← zipIdx_map_fst 0 pipeline.exporters, ← hnamed]
      exact mem_map_of_mem hcall
    obtain ⟨exporter, hexporter⟩ := Option.isSome_iff_exists.mp (hnames _ hmem)
    obtain ⟨runtime, hbuilt, hok⟩ := hbuilt _ exporter hexporter
    rw [hruntime] at hbuilt
    cases hbuilt
    exact ⟨hsignal, exporter, hexporter, hok⟩
  · rw [← hempty]
    split_ifs with hnone
    · exact iff_of_true rfl hnone
    · exact iff_of_false nofun hnone
  · intro error herror
    dsimp only at herror
    split_ifs at herror
    cases herror
    refine ⟨rfl, rfl, fun failure => ?_⟩
    rw [mem_filterMap]
    exact exists_congr fun call => and_congr_right fun _ => Handed.failure_eq_some

end Attempted

/-- A signal that its pipeline takes is handed to every exporter of the list, and it is so just once
if no exporter is listed twice, which the check of a configuration lets pass. -/
theorem pipeline_delivery_iff {ω : Type} (texts : Texts)
    (newOtlp : Str → Option OtlpAuthConfig → Except Str ω) (config : AgentConfig)
    (p : SignalPipeline ω) (hvalid : config.validate texts = .ok ())
    (hp : SignalPipeline.fromConfig texts newOtlp config = .ok p) (receiver : ReceiverKind)
    (signal : Signal)
    (hlisted : receiver.asStr ∈ (config.pipelines.pipelineFor signal).receivers)
    (answers : ℕ → Except Str Unit) :
    Attempted texts newOtlp config receiver signal answers
      (p.exportSignal receiver signal answers) ∧
    ((∀ name ∈ (config.pipelines.pipelineFor signal).exporters,
        (p.exportSignal receiver signal answers).handed.countP (·.name = name) = 1) ↔
      (config.pipelines.pipelineFor signal).exporters.Nodup) := by
  have hattempted := attempted hvalid hp hlisted answers
  refine ⟨hattempted, ?_⟩
  have hcount : ∀ name, (p.exportSignal receiver signal answers).handed.countP (·.name = name) =
      (config.pipelines.pipelineFor signal).exporters.count name := by
    intro name
    rw [← hattempted.named, List.count, countP_map]
    exact countP_congr fun call _ => by simp
  rw [nodup_iff_count_eq_one]
  exact forall₂_congr fun name _ => by rw [hcount]

section Twice

/-- All signals go to the exporters of the list. -/
def debugPipeline (exporters : List Str) : PipelineConfig := ⟨["device".toList], [], exporters⟩

def debugConfig (exporters : List Str) : AgentConfig where
  databaseLogs := ⟨false, 0, 0, []⟩
  processors := .empty
  exporters := (SortedMap.empty.insert "client".toList
    (.skidClient (some "127.0.0.1:9000".toList))).insert "debug".toList (.logging false)
  pipelines := ⟨debugPipeline exporters, debugPipeline exporters, debugPipeline exporters⟩

def plainTexts : Texts := ⟨fun _ => none, some, id⟩

def debugSignals (exporters : List Str) : SignalPipeline Unit :=
  ⟨.empty, (debugConfig exporters).pipelines,
    (SortedMap.empty.insert "client".toList (.skidClient (some "127.0.0.1:9000".toList))).insert
      "debug".toList (.logging false)⟩

/-- The client cannot be reached; the other exporters succeed. -/
def refused : ℕ → Except Str Unit
  | 0 => .error "Connection refused".toList
  | _ => .ok ()

theorem pipeline_delivery_debug :
    let exporters := ["client".toList, "debug".toList]
    let x := (debugSignals exporters).exportSignal .device (.logs []) refused
    (∀ name ∈ exporters, x.handed.countP (·.name = name) = 1) ∧
      x.result = .error ⟨.device, .logs, [⟨"client".toList, "Connection refused".toList⟩]⟩ ∧
      ¬ ∀ call ∈ x.handed, call.outcome = .ok () := by
  intro exporters x
  obtain ⟨hattempted, hiff⟩ := pipeline_delivery_iff plainTexts (fun _ _ => .ok ())
    (debugConfig exporters) (debugSignals exporters) (by decide +kernel) rfl .device (.logs [])
    (by decide) refused
  refine ⟨hiff.mpr (by decide), rfl, fun hall => ?_⟩
  cases hattempted.ok.mpr hall

/-- An exporter that is listed twice is accepted, and handed the signal twice. -/
theorem listed_twice_handed_twice :
    (debugConfig ["debug".toList, "debug".toList]).validate plainTexts = .ok () ∧
    SignalPipeline.fromConfig plainTexts (fun _ _ => .ok ())
      (debugConfig ["debug".toList, "debug".toList]) =
        .ok (debugSignals ["debug".toList, "debug".toList]) ∧
    ((debugSignals ["debug".toList, "debug".toList]).exportSignal .device (.logs [])
      fun _ => .ok ()).handed.map Handed.name = ["debug".toList, "debug".toList] :=
  ⟨by decide +kernel, rfl, rfl⟩

end Twice

end SkidMonitor.Pipeline
