import Nexora.Std.Table
import Nexora.Std.Fallible
import Nexora.Data.Failure

/-!
# Workspace membership

Roles, the permissions they grant and the check every workspace operation starts
with. A member's role is read under a row lock, so within one transaction it does
not change.
-/

namespace Nexora.Workspace

open Nexora.Std

/-- A verified token's identity. -/
structure Principal where
  issuer : String
  subject : String
  deriving DecidableEq, Repr

/-- A member's role. -/
inductive Role where
  | owner
  | admin
  | member
  deriving DecidableEq, Repr

/-- What a member may do inside a workspace. -/
inductive Permission where
  | read
  | update
  | manageMembers
  | manageAgents
  | runAgents
  | cancelAnyRun
  | manageTools
  | approveTools
  | manageKnowledge
  | manageEvals
  | manageSpend
  | manageIntegrations
  deriving DecidableEq, Repr

/-- Whether a role grants a permission. -/
def grants : Role → Permission → Bool
  | .owner, _ => true
  | .admin, permission => permission ≠ .manageMembers
  | .member, permission => permission = .read || permission = .runAgents

/-- Refuse a non-member as if the workspace did not exist, and a member whose role
lacks the permission. -/
def authorize (role : Option Role) (permission : Permission) : Except Failure Unit := do
  let held ← orRaise role (.http 404 none)
  raiseIf (grants held permission = false) (.http 403 none)

/-- `workspace_memberships`, by workspace and identity. -/
abbrev Memberships := Table (Uuid × Principal) Role

/-- The caller's role, once it grants the permission. -/
def scopedMember (memberships : Memberships) (principal : Principal) (workspaceId : Uuid)
    (permission : Permission) : Except Failure Unit :=
  authorize (memberships.find? (workspaceId, principal)) permission

/-- A caller passes exactly when it is a member whose role grants the permission. -/
@[simp]
theorem scopedMember_eq_ok (memberships : Memberships) (principal : Principal) (workspaceId : Uuid)
    (permission : Permission) (result : Unit) :
    scopedMember memberships principal workspaceId permission = .ok result ↔
      ∃ role, memberships.find? (workspaceId, principal) = some role ∧
        grants role permission = true := by
  simp [scopedMember, authorize]

/-- Give a member of the caller's issuer a role other than owner. -/
def setMember (memberships : Memberships) (principal : Principal) (workspaceId : Uuid)
    (subject : String) (role : Role) : Except Failure Memberships := do
  scopedMember memberships principal workspaceId .manageMembers
  raiseIf (role = .owner) (.http 403 none)
  raiseIf (memberships.find? (workspaceId, ⟨principal.issuer, subject⟩) = some .owner)
    (.http 403 none)
  pure (memberships.put (workspaceId, ⟨principal.issuer, subject⟩) role)

end Nexora.Workspace
