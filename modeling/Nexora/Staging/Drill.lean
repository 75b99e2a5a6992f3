import Nexora.Std.Actions
import Nexora.Knowledge.Trimming

/-!
# The staging drill

A rollout of candidate images over three deployments and its rollback. What a command does is
the cluster's: it may fail with or without effect, and undoing a rollout may go back to any
image. The drill's own commands are the only ones that change an image.
-/

namespace Nexora.Staging

open Nexora.Std Nexora.Knowledge Json

/-- `DEPLOYMENTS`. -/
inductive Deployment where
  | api
  | worker
  | web
  deriving DecidableEq

/-- The deployments in the order of `DEPLOYMENTS`. -/
def deployments : List Deployment := [.api, .worker, .web]

/-- The name of a deployment. -/
def Deployment.name : Deployment → PyStr
  | .api => py "nexora-api"
  | .worker => py "nexora-worker"
  | .web => py "nexora-web"

/-- The container of a deployment, and its key. -/
def Deployment.container : Deployment → PyStr
  | .api => py "api"
  | .worker => py "worker"
  | .web => py "web"

/-- What a command asks of the cluster, and the smoke test. -/
inductive Command where
  | getImage (deployment : Deployment)
  | canI (verb resource : PyStr)
  | setImage (deployment : Deployment) (image : PyStr) (serverDryRun : Bool)
  | rolloutStatus (deployment : Deployment)
  | rolloutUndo (deployment : Deployment)
  | smoke
  deriving DecidableEq

/-- The command may change the image of a deployment. -/
def Command.touches (deployment : Deployment) : Command → Prop
  | .setImage other _ serverDryRun => other = deployment ∧ serverDryRun = false
  | .rolloutUndo other => other = deployment
  | _ => False

/-- An exception: a `DrillError`, the one that reports a failed emergency restore, or another. -/
inductive Raised where
  | drill (text : PyStr)
  | restoreFailed (text : PyStr)
  | other (text : PyStr)
  deriving DecidableEq

/-- `str(exc)`. -/
def Raised.text : Raised → PyStr
  | .drill text | .restoreFailed text | .other text => text

/-- What comes of a command: the exception it raises, if it fails, whether a command that fails
takes effect all the same, what is printed, and the image an undone rollout goes back to. -/
structure Outcome where
  raised : Option Raised
  takesEffect : Bool
  output : PyStr
  undone : PyStr

/-- The images that are deployed, and the commands issued so far. -/
structure World where
  image : Deployment → PyStr
  issued : List Command

/-- What comes of each command, by the number of those before it. -/
abbrev Cluster : Type := Nat → Outcome

/-- A step of the drill. -/
abbrev Step (α : Type) : Type := Action World Raised α

/-- The images after a command that takes effect. -/
def Command.effect (outcome : Outcome) (image : Deployment → PyStr) :
    Command → Deployment → PyStr
  | .setImage deployment new false => Function.update image deployment new
  | .rolloutUndo deployment => Function.update image deployment outcome.undone
  | _ => image

/-- What a command that succeeds prints. -/
def Command.output (outcome : Outcome) (image : Deployment → PyStr) : Command → PyStr
  | .getImage deployment => image deployment
  | _ => outcome.output

/-- The texts joined by a separator. -/
def joined (texts : List PyStr) : PyStr := (py "; ").intercalate texts

section Drill

variable (cluster : Cluster)

/-- `runner(command)`, and `smoke()`. -/
def runner (command : Command) : Step PyStr := do
  let world ← get
  let outcome := cluster world.issued.length
  let image :=
    if outcome.raised.isNone || outcome.takesEffect then command.effect outcome world.image
    else world.image
  set (⟨image, world.issued ++ [command]⟩ : World)
  match outcome.raised with
  | some raised => throw raised
  | none => pure (command.output outcome world.image)

/-- A lowercase hexadecimal digit. -/
def isHexDigit (point : Fin 0x110000) : Bool :=
  (0x30 ≤ point && point ≤ 0x39) || (0x61 ≤ point && point ≤ 0x66)

/-- `DIGEST_IMAGE.fullmatch`. -/
def isDigestImage (image : PyStr) : Bool :=
  let name := image.takeWhile (· ≠ 0x40)
  let digest := image.drop name.length
  name ≠ [] && name.all (fun point => !isSpace point) && digest.take 8 = py "@sha256:" &&
    (digest.drop 8).length = 64 && (digest.drop 8).all isHexDigit

/-- `validate_image_reference`. -/
def validateImageReference (image label : PyStr) : Step PyStr := do
  Action.raiseIf (isDigestImage image = false)
    (.drill (label ++ py (" images must be immutable registry references ending in " ++
      "@sha256:<64 lowercase hex characters>")))
  pure image

/-- `_get_image`. -/
def getImage (deployment : Deployment) : Step PyStr := do
  let printed ← runner cluster (.getImage deployment)
  let output := strip printed
  Action.raiseIf (output = [])
    (.drill (deployment.name ++ py "/" ++ deployment.container ++ py " has no image"))
  pure output

/-- `Images`. -/
structure Images where
  api : PyStr
  worker : PyStr
  web : PyStr
  deriving DecidableEq

/-- `snapshot_images`. -/
def snapshotImages : Step Images := do
  let api ← getImage cluster .api
  let worker ← getImage cluster .worker
  let web ← getImage cluster .web
  pure ⟨api, worker, web⟩

/-- `_candidate_for`. -/
def candidateFor (apiImage webImage : PyStr) : Deployment → PyStr
  | .web => webImage
  | _ => apiImage

/-- `_previous_for`. -/
def Images.previousFor (previous : Images) : Deployment → PyStr
  | .api => previous.api
  | .worker => previous.worker
  | .web => previous.web

/-- `_changed_deployments`. -/
def changedDeployments (previous : Images) (apiImage webImage : PyStr) : List Deployment :=
  deployments.filter fun deployment =>
    previous.previousFor deployment ≠ candidateFor apiImage webImage deployment

/-- `_set_image`. -/
def setImage (deployment : Deployment) (image : PyStr) (serverDryRun : Bool) : Step PUnit := do
  let _ ← runner cluster (.setImage deployment image serverDryRun)

/-- `_wait`. -/
def wait (deployment : Deployment) : Step PUnit := do
  let _ ← runner cluster (.rolloutStatus deployment)

/-- The permissions the drill asks for. -/
def permissions : List (PyStr × PyStr) :=
  [(py "get", py "deployments.apps"), (py "watch", py "deployments.apps"),
    (py "patch", py "deployments.apps"), (py "get", py "replicasets.apps"),
    (py "list", py "replicasets.apps")]

/-- `text.lower()`, as far as it comes to an ASCII word. -/
def lower (text : PyStr) : PyStr :=
  text.map fun point => if 0x41 ≤ point && point ≤ 0x5a then point + 0x20 else point

/-- `_preflight`. -/
def preflight (nameSpace apiImage webImage : PyStr) (changed : List Deployment) : Step PUnit := do
  permissions.forM fun permission => do
    let allowed ← runner cluster (.canI permission.1 permission.2)
    Action.raiseIf (lower (strip allowed) ≠ py "yes")
      (.drill (py "staging identity cannot " ++ permission.1 ++ py " " ++ permission.2 ++
        py " in namespace " ++ nameSpace))
  changed.forM fun deployment =>
    setImage cluster deployment (candidateFor apiImage webImage deployment) true

/-- `_apply_candidate`. -/
def applyCandidate (apiImage webImage : PyStr) (changed : List Deployment) : Step PUnit := do
  changed.forM fun deployment =>
    setImage cluster deployment (candidateFor apiImage webImage deployment) false
  changed.forM (wait cluster)

/-- `_rollback`. -/
def rollback (changed : List Deployment) : Step PUnit := do
  changed.forM fun deployment => do
    let _ ← runner cluster (.rolloutUndo deployment)
  changed.forM (wait cluster)

/-- An action whose `DrillError` is noted and passed over. -/
def noting (errors : List PyStr) (action : Step PUnit) : Step (List PyStr) :=
  tryCatch (do
    action
    pure errors) fun raised =>
    match raised with
    | .other text => throw (.other text)
    | raised => pure (errors ++ [raised.text])

/-- `_restore_exact`. -/
def restoreExact (previous : Images) (changed : List Deployment) : Step PUnit := do
  let unset ← changed.foldlM (fun errors deployment =>
    noting errors (setImage cluster deployment (previous.previousFor deployment) false)) []
  let errors ← changed.foldlM (fun errors deployment =>
    noting errors (wait cluster deployment)) unset
  Action.raiseIf (errors ≠ [])
    (.drill (py "emergency restore was incomplete: " ++ joined errors))

/-- `assert_restored`. -/
def assertRestored (previous : Images) : Step PUnit := do
  let mismatches ← deployments.foldlM (fun mismatches deployment => do
    let actual ← getImage cluster deployment
    let expected := previous.previousFor deployment
    pure (if actual ≠ expected then
      mismatches ++ [deployment.name ++ py ": expected " ++ expected ++ py ", got " ++ actual]
    else mismatches)) []
  Action.raiseIf (mismatches ≠ [])
    (.drill (py "rollback did not restore exact previous images: " ++ joined mismatches))

/-- The handler of `run_drill`: the images are restored, and the drill's error is raised. -/
def recover (previous : Images) (changed : List Deployment) (raised : Raised) : Step PUnit := do
  tryCatch (restoreExact cluster previous changed) fun restoring =>
    throw (.restoreFailed (py "drill failed (" ++ raised.text ++
      py "); emergency restore also failed (" ++ restoring.text ++ py ")"))
  match raised with
  | .other text => throw (.drill (py "drill failed: " ++ text))
  | raised => throw raised

/-- `run_drill`. When its handler runs, `mutated` is set. -/
def runDrill (nameSpace apiImage webImage : PyStr) : Step Images := do
  let apiImage ← validateImageReference apiImage (py "candidate")
  let webImage ← validateImageReference webImage (py "candidate")
  let previous ← snapshotImages cluster
  [previous.api, previous.worker, previous.web].forM fun current => do
    let _ ← validateImageReference current (py "currently deployed")
  let changed := changedDeployments previous apiImage webImage
  Action.raiseIf (changed = [])
    (.drill (py "candidate images are already deployed; rollback would prove nothing"))
  preflight cluster nameSpace apiImage webImage changed
  tryCatch (do
    applyCandidate cluster apiImage webImage changed
    let _ ← runner cluster .smoke
    rollback cluster changed
    assertRestored cluster previous
    let _ ← runner cluster .smoke) (recover cluster previous changed)
  pure previous

end Drill

end Nexora.Staging
