import Mathlib
import Nexora.Data.Failure

/-!
# Versions and agent manifests

A semantic version orders by its numeric parts, never by its text, and a manifest
is the immutable contract of one published version. The manifest keeps what the
catalog and the tenant instances read: its identity and release state, the runtime
it needs and the integrations it declares.
-/

namespace Nexora.Catalog

/-- Release state of a catalog agent or of one of its versions. -/
inductive AgentStatus where
  | draft
  | beta
  | stable
  | deprecated
  | disabled
  deriving DecidableEq, Repr

/-- A release channel a workspace may follow. -/
inductive Channel where
  | stable
  | beta
  | canary
  deriving DecidableEq, Repr

/-- A semantic version. `SEMVER` admits no leading zeros, so the text and the
three numbers determine each other. -/
@[ext]
structure Version where
  major : Nat
  minor : Nat
  patch : Nat
  deriving DecidableEq, Repr

namespace Version

/-- The sortable components, compared from left to right. -/
def parts (version : Version) : ℕ ×ₗ ℕ ×ₗ ℕ :=
  toLex (version.major, toLex (version.minor, version.patch))

/-- Versions with the same parts are the same version. -/
theorem parts_injective : Function.Injective parts := by
  intro left right same
  cases left
  cases right
  simpa [parts] using same

/-- A runtime serves an agent when it is at least the declared minimum. -/
def satisfiesMinimum (runtime minimum : Version) : Bool :=
  minimum.parts ≤ runtime.parts

end Version

/-- The published contract of one standard agent version. The validator refuses
a manifest that repeats an integration or a tool, or declares it both required and optional. -/
structure AgentManifest where
  slug : String
  version : Version
  minRuntimeVersion : Version
  status : AgentStatus
  channel : Channel
  changelog : String
  requiredIntegrations : List String
  optionalIntegrations : List String
  requiredDistinct : requiredIntegrations.Nodup
  optionalDistinct : optionalIntegrations.Nodup
  neverBoth : ∀ name ∈ requiredIntegrations, name ∉ optionalIntegrations
  requiredTools : List String := []
  optionalTools : List String := []
  toolsDistinct : (requiredTools ++ optionalTools).Nodup := by exact List.nodup_nil
  deriving DecidableEq

/-- Every integration the agent references, with whether it is required. -/
def AgentManifest.integrations (manifest : AgentManifest) : List (String × Bool) :=
  manifest.requiredIntegrations.map (fun name => (name, true)) ++
    manifest.optionalIntegrations.map (fun name => (name, false))

@[simp]
theorem AgentManifest.mem_integrations (manifest : AgentManifest) (name : String)
    (required : Bool) : (name, required) ∈ manifest.integrations ↔
      (required = true ∧ name ∈ manifest.requiredIntegrations) ∨
        (required = false ∧ name ∈ manifest.optionalIntegrations) := by
  cases required <;> simp [integrations]

end Nexora.Catalog
