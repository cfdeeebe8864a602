import AdaptiveBatch.Command.Invocation
import AdaptiveBatch.Config.Load
import AdaptiveBatch.Simulation.Report

/-!
# Simulating

Loads a configuration, applies what the command line overrides, checks the outcome
again, and runs the simulation.
-/

namespace AdaptiveBatch
namespace Command

/-- Why there is no configuration. -/
inductive LoadFailure where
  | missing (path : String)
  | refused (path : String) (fault : Fault)
  deriving DecidableEq, Repr

def LoadFailure.chain : LoadFailure → List String
  | .missing path => ["Configuration file not found: " ++ path]
  | .refused path f => ("Failed to load config from " ++ path) :: f.chain

/-- The configuration that a simulation starts from. -/
def loadConfiguration (files : Files.View) :
    Option String → Except LoadFailure (Configuration Float)
  | none => .ok .standard
  | some path =>
    if files.contains path then
      match Config.loadFile files path with
      | .ok c => .ok c
      | .error f => .error (.refused path f)
    else .error (.missing path)

/-- The configuration with what the command line overrides. -/
def SimulateOptions.override (o : SimulateOptions) (c : Configuration Float) :
    Configuration Float :=
  { c with
    batcher :=
      { c.batcher with
        projection := if o.corrected then .corrected else c.batcher.projection }
    simulation :=
      { c.simulation with
        producers := o.producers.getD c.simulation.producers
        itemsPerProducer := o.items.getD c.simulation.itemsPerProducer
        probe := o.probe.getD c.simulation.probe } }

inductive SimulateFailure where
  | load (failure : LoadFailure)
  /-- The overrides break a rule. -/
  | settings (fault : Fault)
  | run (failure : Simulation.Failure Float)

def SimulateFailure.chain : SimulateFailure → List String
  | .load f => f.chain
  | .settings f => "Invalid simulation settings" :: f.chain
  | .run f => f.chain

/-- The configuration that a simulation runs with. -/
def effective (files : Files.View) (o : SimulateOptions) :
    Except SimulateFailure (Configuration Float) :=
  match loadConfiguration files o.config with
  | .error f => .error (.load f)
  | .ok c =>
    let c := o.override c
    match c.check with
    | .error f => .error (.settings f)
    | .ok () => .ok c

/-- The figures of a simulation, which nothing shuts down early. -/
def simulate (files : Files.View) (o : SimulateOptions) :
    Except SimulateFailure (Simulation.Stats Float) :=
  match effective files o with
  | .error f => .error f
  | .ok c =>
    match Simulation.run c.batcher c.simulation none with
    | .error f => .error (.run f)
    | .ok (stats, _) => .ok stats

end Command
end AdaptiveBatch
