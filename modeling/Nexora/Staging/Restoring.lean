import Nexora.Staging.Drill

/-!
# The drill restores

Only commands on the changed deployments are issued once the rollout has begun. The drill returns
when every image has been read back as it was, and raises its error once every changed deployment
has been set to the image it had.
-/

namespace Nexora.Staging

open Nexora.Std Nexora.Knowledge Json

variable {cluster : Cluster} {image : Deployment → PyStr} {changed : List Deployment}
  {previous : Images} {command : Command} {deployment : Deployment} {world : World}

/-- What a command does to the images and to the commands issued. -/
theorem runner_ensures {pre : World → Prop} {returns : PyStr → World → Prop}
    {raises : Raised → World → Prop}
    (returned : ∀ world outcome, pre world → returns (command.output outcome world.image)
      ⟨command.effect outcome world.image, world.issued ++ [command]⟩)
    (raised : ∀ world outcome after error, pre world →
      after = world.image ∨ after = command.effect outcome world.image →
      raises error ⟨after, world.issued ++ [command]⟩) :
    Ensures pre (runner cluster command) returns raises := by
  unfold runner
  apply Ensures.get.bind
  intro world
  apply Ensures.set.bind
  intro _
  cases (cluster world.issued.length).raised with
  | none =>
    apply Ensures.pure
    rintro _ ⟨rfl, _, rfl, holds⟩
    exact returned _ _ holds
  | some error =>
    apply Ensures.throw
    rintro _ ⟨rfl, _, rfl, holds⟩
    apply raised _ (cluster world.issued.length) _ error holds
    cases (cluster world.issued.length).takesEffect with
    | false => exact .inl rfl
    | true => exact .inr rfl

/-- What a command does not touch keeps its image. -/
theorem effect_eq (untouched : ¬ command.touches deployment) (outcome : Outcome)
    (image : Deployment → PyStr) :
    command.effect outcome image deployment = image deployment := by
  cases command with
  | setImage other new serverDryRun =>
    cases serverDryRun with
    | true => rfl
    | false =>
      exact Function.update_of_ne (fun same => untouched ⟨same.symm, rfl⟩) _ _
  | rolloutUndo other => exact Function.update_of_ne (fun same => untouched same.symm) _ _
  | getImage | canI | rolloutStatus | smoke => rfl

/-- A command that touches no deployment. -/
def Command.Harmless (command : Command) : Prop := ∀ deployment, ¬ command.touches deployment

theorem Command.Harmless.effect_eq (harmless : command.Harmless) (outcome : Outcome)
    (image : Deployment → PyStr) : command.effect outcome image = image := by
  ext1 deployment
  exact Staging.effect_eq (harmless deployment) outcome image

/-- A condition that issuing a harmless command keeps. -/
def Stable (holds : World → Prop) : Prop :=
  ∀ world (command : Command), command.Harmless → holds world →
    holds ⟨world.image, world.issued ++ [command]⟩

section Harmless

variable {pre : World → Prop}

theorem runner_harmless (stable : Stable pre) (harmless : command.Harmless) :
    Ensures pre (runner cluster command)
      (fun output world => pre world ∧
        ∀ deployment, command = .getImage deployment → output = world.image deployment)
      (fun _ => pre) := by
  apply runner_ensures
  · intro world outcome holds
    rw [harmless.effect_eq]
    refine ⟨stable world command harmless holds, ?_⟩
    rintro deployment rfl
    rfl
  · intro world outcome after error holds effects
    rw [harmless.effect_eq, or_self] at effects
    rw [effects]
    exact stable world command harmless holds

theorem getImage_ensures (stable : Stable pre) (deployment : Deployment) :
    Ensures pre (getImage cluster deployment)
      (fun output world => pre world ∧ output = strip (world.image deployment))
      (fun _ => pre) := by
  apply (runner_harmless stable (fun _ => id)).bind
  intro printed
  apply (Ensures.raiseIf fun _ world holds => holds.1).bind
  intro _
  apply Ensures.pure
  rintro world ⟨-, holds, isPrinted⟩
  rw [isPrinted deployment rfl]
  exact ⟨holds, rfl⟩

theorem wait_ensures (stable : Stable pre) (deployment : Deployment) :
    Ensures pre (wait cluster deployment) (fun _ => pre) (fun _ => pre) := by
  apply (runner_harmless stable (fun _ => id)).bind
  intro _
  exact Ensures.pure fun world holds => holds.1

theorem smoke_ensures (stable : Stable pre) :
    Ensures pre (runner cluster .smoke) (fun _ => pre) (fun _ => pre) :=
  (runner_harmless stable (fun _ => id)).mono (fun _ => id) (fun _ _ holds => holds.1)
    fun _ _ => id

end Harmless

/-- Nothing has been changed yet. -/
def Pristine (image : Deployment → PyStr) (world : World) : Prop :=
  world.image = image ∧ ∀ command ∈ world.issued, command.Harmless

/-- What is not among the changed deployments is as it was, and no command has touched it. -/
def Framed (image : Deployment → PyStr) (changed : List Deployment) (world : World) : Prop :=
  ∀ deployment ∉ changed, world.image deployment = image deployment ∧
    ∀ command ∈ world.issued, ¬ command.touches deployment

/-- Every image reads as it did. -/
def Restored (image : Deployment → PyStr) (world : World) : Prop :=
  ∀ deployment, strip (world.image deployment) = strip (image deployment)

theorem Pristine.stable (image : Deployment → PyStr) : Stable (Pristine image) := by
  rintro world command harmless ⟨same, issued⟩
  refine ⟨same, fun other member => ?_⟩
  rcases List.mem_append.mp member with before | last
  · exact issued other before
  · rwa [List.mem_singleton.mp last]

theorem Framed.stable (image : Deployment → PyStr) (changed : List Deployment) :
    Stable (Framed image changed) := by
  intro world command harmless framed deployment outside
  obtain ⟨same, untouched⟩ := framed deployment outside
  refine ⟨same, fun other member => ?_⟩
  rcases List.mem_append.mp member with before | last
  · exact untouched other before
  · rw [List.mem_singleton.mp last]
    exact harmless deployment

theorem Stable.and {first second : World → Prop} (one : Stable first) (two : Stable second) :
    Stable fun world => first world ∧ second world :=
  fun world command harmless holds =>
    ⟨one world command harmless holds.1, two world command harmless holds.2⟩

/-- A condition on the images alone is stable. -/
theorem Stable.ofImage (holds : (Deployment → PyStr) → Prop) :
    Stable fun world => holds world.image := fun _ _ _ => id

theorem Pristine.framed (pristine : Pristine image world) :
    Framed image changed world :=
  fun deployment _ =>
    ⟨by rw [pristine.1], fun command member => pristine.2 command member deployment⟩

theorem Pristine.restored (pristine : Pristine image world) :
    Restored image world := fun deployment => by rw [pristine.1]

/-- A command on a changed deployment keeps the others as they are. -/
theorem runner_framed (inside : ∀ deployment ∉ changed, ¬ command.touches deployment) :
    Ensures (Framed image changed) (runner cluster command) (fun _ => Framed image changed)
      (fun _ => Framed image changed) := by
  have kept : ∀ (world : World) (after : Deployment → PyStr), Framed image changed world →
      (∀ deployment ∉ changed, after deployment = world.image deployment) →
      Framed image changed ⟨after, world.issued ++ [command]⟩ := by
    intro world after framed same deployment outside
    obtain ⟨sameImage, untouched⟩ := framed deployment outside
    refine ⟨(same deployment outside).trans sameImage, fun other member => ?_⟩
    rcases List.mem_append.mp member with before | last
    · exact untouched other before
    · rw [List.mem_singleton.mp last]
      exact inside deployment outside
  apply runner_ensures
  · intro world outcome framed
    exact kept world _ framed fun deployment outside => effect_eq (inside deployment outside) _ _
  · rintro world outcome after error framed (rfl | rfl)
    · exact kept world _ framed fun _ _ => rfl
    · exact kept world _ framed fun deployment outside =>
        effect_eq (inside deployment outside) _ _

theorem setImage_framed (member : deployment ∈ changed) (new : PyStr) (serverDryRun : Bool) :
    Ensures (Framed image changed) (setImage cluster deployment new serverDryRun)
      (fun _ => Framed image changed) (fun _ => Framed image changed) := by
  have inside : ∀ other ∉ changed,
      ¬ (Command.setImage deployment new serverDryRun).touches other := by
    rintro other outside ⟨rfl, -⟩
    exact outside member
  apply (runner_framed inside).bind
  intro _
  exact Ensures.pure fun _ => id

/-- A loop of waiting keeps what harmless commands keep. -/
theorem waits_ensure {pre : World → Prop} (stable : Stable pre) (waited : List Deployment) :
    Ensures pre (waited.forM (wait cluster)) (fun _ => pre) (fun _ => pre) :=
  Ensures.forM (fun _ => pre) waited fun _ deployment _ _ => wait_ensures stable deployment

theorem applyCandidate_framed (apiImage webImage : PyStr) :
    Ensures (Framed image changed) (applyCandidate cluster apiImage webImage changed)
      (fun _ => Framed image changed) (fun _ => Framed image changed) := by
  apply Ensures.bind
  · apply Ensures.forM fun _ => Framed image changed
    intro done deployment rest whole
    exact setImage_framed (by simp [whole]) _ _
  · exact fun _ => waits_ensure (Framed.stable image changed) changed

theorem rollback_framed :
    Ensures (Framed image changed) (rollback cluster changed)
      (fun _ => Framed image changed) (fun _ => Framed image changed) := by
  apply Ensures.bind
  · apply Ensures.forM fun _ => Framed image changed
    intro done deployment rest whole
    have member : deployment ∈ changed := by simp [whole]
    have inside : ∀ other ∉ changed, ¬ (Command.rolloutUndo deployment).touches other := by
      rintro other outside rfl
      exact outside member
    apply (runner_framed inside).bind
    intro _
    exact Ensures.pure fun _ => id
  · exact fun _ => waits_ensure (Framed.stable image changed) changed

/-- What is noted of an action that may raise. -/
theorem noting_ensures {pre returned raised : World → Prop} {action : Step PUnit}
    (ensures : Ensures pre action (fun _ => returned) (fun _ => raised)) (errors : List PyStr) :
    Ensures pre (noting errors action)
      (fun noted world => (noted = errors ∧ returned world) ∨ (noted ≠ [] ∧ raised world))
      (fun _ => raised) := by
  apply Ensures.tryCatch _ (ensures.bind fun _ => Ensures.pure fun world holds => .inl ⟨rfl, holds⟩)
  intro error
  cases error with
  | other text => exact Ensures.throw fun _ => id
  | drill | restoreFailed => exact Ensures.pure fun world holds => .inr ⟨by simp, holds⟩

/-- A deployment that is set has its image, and those that were set before keep theirs. -/
theorem setImage_sets {framed : World → Prop} (done : List Deployment) (errors : List PyStr)
    (deployment : Deployment) :
    Ensures (fun world => framed world ∧ (errors = [] →
        ∀ other ∈ done, world.image other = previous.previousFor other))
      (setImage cluster deployment (previous.previousFor deployment) false)
      (fun _ world => errors = [] →
        ∀ other ∈ done ++ [deployment], world.image other = previous.previousFor other)
      (fun _ _ => True) := by
  have runs : Ensures (fun world => framed world ∧ (errors = [] →
        ∀ other ∈ done, world.image other = previous.previousFor other))
      (runner cluster (.setImage deployment (previous.previousFor deployment) false))
      (fun _ world => errors = [] →
        ∀ other ∈ done ++ [deployment], world.image other = previous.previousFor other)
      (fun _ _ => True) := by
    apply runner_ensures _ fun _ _ _ _ _ _ => trivial
    rintro world outcome ⟨-, set⟩ none other member
    change Function.update world.image deployment (previous.previousFor deployment) other = _
    by_cases same : other = deployment
    · rw [same, Function.update_self]
    · rw [Function.update_of_ne same]
      rcases List.mem_append.mp member with before | last
      · exact set none other before
      · exact absurd (List.mem_singleton.mp last) same
  apply runs.bind
  intro _
  exact Ensures.pure fun _ => id

/-- The emergency restore returns once every changed deployment has the image it had. -/
theorem restoreExact_ensures :
    Ensures (Framed image changed) (restoreExact cluster previous changed)
      (fun _ world => Framed image changed world ∧
        ∀ deployment ∈ changed, world.image deployment = previous.previousFor deployment)
      (fun _ => Framed image changed) := by
  let kept := fun (done : List Deployment) (errors : List PyStr) (world : World) =>
    Framed image changed world ∧ (errors = [] →
      ∀ deployment ∈ done, world.image deployment = previous.previousFor deployment)
  have start : ∀ world, Framed image changed world → kept [] [] world :=
    fun world framed => ⟨framed, fun _ deployment member => by cases member⟩
  apply Ensures.bind
  · refine (Ensures.foldlM (fun _ => Framed image changed) kept changed ?_ []).mono start
      (fun _ _ => id) (fun _ _ => id)
    intro done deployment rest whole errors
    have member : deployment ∈ changed := by simp [whole]
    have sets : Ensures (kept done errors)
        (setImage cluster deployment (previous.previousFor deployment) false)
        (fun _ => kept (done ++ [deployment]) errors) (fun _ => Framed image changed) := by
      have framed : Ensures (kept done errors)
          (setImage cluster deployment (previous.previousFor deployment) false)
          (fun _ => Framed image changed) (fun _ => Framed image changed) :=
        (setImage_framed member _ false).mono (fun _ holds => holds.1) (fun _ _ => id)
          (fun _ _ => id)
      exact (framed.and (setImage_sets done errors deployment)).mono (fun _ => id) (fun _ _ => id)
        (fun _ _ holds => holds.1)
    apply (noting_ensures sets errors).mono (fun _ => id) _ (fun _ _ => id)
    rintro noted world (⟨rfl, holds⟩ | ⟨some_, framed⟩)
    · exact holds
    · exact ⟨framed, fun nothing => absurd nothing some_⟩
  · intro unset
    apply Ensures.bind
    · refine Ensures.foldlM (fun _ => Framed image changed)
        (fun _ errors => kept changed errors) changed ?_ unset
      intro done deployment rest whole errors
      have stable : Stable (kept changed errors) :=
        (Framed.stable image changed).and (Stable.ofImage fun images => errors = [] →
          ∀ deployment ∈ changed, images deployment = previous.previousFor deployment)
      apply (noting_ensures (wait_ensures stable deployment) errors).mono (fun _ => id) _
        (fun _ _ holds => holds.1)
      rintro noted world (⟨rfl, holds⟩ | ⟨some_, holds⟩)
      · exact holds
      · exact ⟨holds.1, fun nothing => absurd nothing some_⟩
    · intro errors
      refine (Ensures.raiseIf fun _ world holds => holds.1).mono (fun _ => id) ?_ (fun _ _ => id)
      rintro _ world ⟨none, framed, restored⟩
      exact ⟨framed, restored (not_not.mp none)⟩

/-- The check returns if every image reads as the previous one. -/
theorem assertRestored_ensures :
    Ensures (Framed image changed) (assertRestored cluster previous)
      (fun _ world => Framed image changed world ∧
        ∀ deployment, strip (world.image deployment) = previous.previousFor deployment)
      (fun _ => Framed image changed) := by
  let kept := fun (done : List Deployment) (mismatches : List PyStr) (world : World) =>
    Framed image changed world ∧ (mismatches = [] →
      ∀ deployment ∈ done, strip (world.image deployment) = previous.previousFor deployment)
  apply Ensures.through (kept deployments)
  · refine (Ensures.foldlM (fun _ => Framed image changed) kept deployments ?_ []).mono
      (fun world framed => ⟨framed, fun _ deployment member => by cases member⟩)
      (fun _ _ => id) (fun _ _ => id)
    intro done deployment rest whole mismatches
    have stable : Stable (kept done mismatches) :=
      (Framed.stable image changed).and (Stable.ofImage fun images => mismatches = [] →
        ∀ deployment ∈ done, strip (images deployment) = previous.previousFor deployment)
    apply ((getImage_ensures stable deployment).mono (fun _ => id) (fun _ _ => id)
      fun _ _ holds => holds.1).bind
    intro actual
    apply Ensures.pure
    rintro world ⟨⟨framed, reads⟩, isActual⟩
    refine ⟨framed, fun none other member => ?_⟩
    by_cases same : actual = previous.previousFor deployment
    · rw [if_neg (not_not.mpr same)] at none
      rcases List.mem_append.mp member with before | last
      · exact reads none other before
      · rw [List.mem_singleton.mp last, ← isActual, same]
    · rw [if_pos same] at none
      simp at none
  · intro mismatches
    refine (Ensures.raiseIf fun _ world holds => holds.1).mono (fun _ => id) ?_ (fun _ _ => id)
    rintro _ world ⟨none, framed, reads⟩
    refine ⟨framed, fun deployment => reads (not_not.mp none) deployment ?_⟩
    cases deployment <;> decide

/-- An image that was set to the one it had reads as it did. -/
theorem restored_of_set
    (isSnapshot : ∀ deployment, previous.previousFor deployment = strip (image deployment))
    (framed : Framed image changed world)
    (set : ∀ deployment ∈ changed, world.image deployment = previous.previousFor deployment) :
    Restored image world := by
  intro deployment
  by_cases member : deployment ∈ changed
  · rw [set deployment member, isSnapshot]
    exact trim_trim isSpace _
  · rw [(framed deployment member).1]

/-- Recovering never returns, and what it raises reports a restore that failed or comes after one
that did not. -/
theorem recover_ensures
    (isSnapshot : ∀ deployment, previous.previousFor deployment = strip (image deployment))
    (raised : Raised) {never : PUnit → World → Prop} :
    Ensures (Framed image changed) (recover cluster previous changed raised) never
      (fun error world => Framed image changed world ∧
        ((∀ text, error ≠ .restoreFailed text) → Restored image world)) := by
  apply Ensures.through (fun _ world => Framed image changed world ∧ Restored image world)
  · apply Ensures.tryCatch (fun _ => Framed image changed)
    · exact restoreExact_ensures.mono (fun _ => id)
        (fun _ world holds => ⟨holds.1, restored_of_set isSnapshot holds.1 holds.2⟩) (fun _ _ => id)
    · intro restoring
      exact Ensures.throw fun world framed => ⟨framed, fun other => absurd rfl (other _)⟩
  · intro _
    cases raised with
    | other | drill | restoreFailed =>
      exact Ensures.throw fun world holds => ⟨holds.1, fun _ => holds.2⟩

/-- The rollout, its rollback and the checks, with what is done where one of them fails. -/
theorem drill_ensures
    (isSnapshot : ∀ deployment, previous.previousFor deployment = strip (image deployment))
    (apiImage webImage : PyStr) :
    Ensures (Framed image changed)
      (tryCatch (do
        applyCandidate cluster apiImage webImage changed
        let _ ← runner cluster .smoke
        rollback cluster changed
        assertRestored cluster previous
        let _ ← runner cluster .smoke) (recover cluster previous changed))
      (fun _ world => Framed image changed world ∧ Restored image world)
      (fun error world => Framed image changed world ∧
        ((∀ text, error ≠ .restoreFailed text) → Restored image world)) := by
  have framed := Framed.stable image changed
  apply Ensures.tryCatch (fun _ => Framed image changed)
  · apply (applyCandidate_framed apiImage webImage).bind
    intro _
    apply (smoke_ensures framed).bind
    intro _
    apply rollback_framed.bind
    intro _
    apply assertRestored_ensures.bind
    intro _
    have stable : Stable fun world => Framed image changed world ∧
        ∀ deployment, strip (world.image deployment) = previous.previousFor deployment :=
      framed.and (Stable.ofImage fun images =>
        ∀ deployment, strip (images deployment) = previous.previousFor deployment)
    apply ((smoke_ensures stable).mono (fun _ => id) (fun _ _ => id)
      fun _ _ holds => holds.1).bind
    intro _
    apply Ensures.pure
    intro world holds
    exact ⟨holds.1, fun deployment => (holds.2 deployment).trans (isSnapshot deployment)⟩
  · exact fun raised => recover_ensures isSnapshot raised

/-! ## Before the rollout -/

theorem validateImageReference_ensures {pre : World → Prop} (text label : PyStr) :
    Ensures pre (validateImageReference text label) (fun value world => value = text ∧ pre world)
      (fun _ => pre) := by
  apply Ensures.through (fun _ => pre)
  · exact (Ensures.raiseIf fun _ _ => id).mono (fun _ => id) (fun _ _ holds => holds.2)
      (fun _ _ => id)
  · exact fun _ => Ensures.pure fun world holds => ⟨rfl, holds⟩

theorem snapshotImages_ensures :
    Ensures (Pristine image) (snapshotImages cluster)
      (fun previous world => Pristine image world ∧
        ∀ deployment, previous.previousFor deployment = strip (image deployment))
      (fun _ => Pristine image) := by
  have reads : ∀ {pre : World → Prop} (deployment : Deployment), Stable pre →
      (∀ world, pre world → Pristine image world) →
      Ensures pre (getImage cluster deployment)
        (fun output world => pre world ∧ output = strip (image deployment))
        (fun _ => Pristine image) := by
    intro pre deployment stable pristine
    refine (getImage_ensures stable deployment).mono (fun _ => id) ?_ fun _ => pristine
    rintro output world ⟨holds, rfl⟩
    exact ⟨holds, by rw [(pristine world holds).1]⟩
  have pristine := Pristine.stable image
  have fixed : ∀ holds : Prop, Stable fun world => Pristine image world ∧ holds :=
    fun holds => pristine.and (Stable.ofImage fun _ => holds)
  apply (reads .api pristine fun _ => id).bind
  intro api
  apply (reads .worker (fixed _) fun _ holds => holds.1).bind
  intro worker
  apply (reads .web ((fixed _).and (Stable.ofImage fun _ => _)) fun _ holds => holds.1.1).bind
  intro web
  apply Ensures.pure
  rintro world ⟨⟨⟨holds, isApi⟩, isWorker⟩, isWeb⟩
  refine ⟨holds, fun deployment => ?_⟩
  cases deployment
  · exact isApi
  · exact isWorker
  · exact isWeb

theorem preflight_ensures {pre : World → Prop} (stable : Stable pre)
    (nameSpace apiImage webImage : PyStr) :
    Ensures pre (preflight cluster nameSpace apiImage webImage changed) (fun _ => pre)
      (fun _ => pre) := by
  apply Ensures.through (fun _ => pre)
  · apply Ensures.forM fun _ => pre
    intro done permission rest whole
    apply (runner_harmless stable fun _ => id).bind
    intro allowed
    exact (Ensures.raiseIf fun _ _ holds => holds.1).mono (fun _ => id)
      (fun _ _ holds => holds.2.1) (fun _ _ => id)
  · intro _
    apply Ensures.forM fun _ => pre
    intro done deployment rest whole
    have harmless : (Command.setImage deployment (candidateFor apiImage webImage deployment)
        true).Harmless := fun other touches => absurd touches.2 (by decide)
    apply (runner_harmless stable harmless).bind
    intro _
    exact Ensures.pure fun world holds => holds.1

/-! ## The whole drill -/

/-- A deployment whose image was the candidate is as it was, and no command has touched it. -/
def Untouched (image : Deployment → PyStr) (apiImage webImage : PyStr) (world : World) : Prop :=
  ∀ deployment, strip (image deployment) = candidateFor apiImage webImage deployment →
    world.image deployment = image deployment ∧
      ∀ command ∈ world.issued, ¬ command.touches deployment

theorem mem_changedDeployments {apiImage webImage : PyStr} :
    deployment ∈ changedDeployments previous apiImage webImage ↔
      previous.previousFor deployment ≠ candidateFor apiImage webImage deployment := by
  have listed : deployment ∈ deployments := by cases deployment <;> decide
  simp [changedDeployments, listed]

theorem Framed.untouched {apiImage webImage : PyStr}
    (isSnapshot : ∀ deployment, previous.previousFor deployment = strip (image deployment))
    (framed : Framed image (changedDeployments previous apiImage webImage) world) :
    Untouched image apiImage webImage world := by
  intro deployment same
  apply framed deployment
  rw [mem_changedDeployments, isSnapshot, same, ne_eq, not_not]

theorem runDrill_ensures (cluster : Cluster) (image : Deployment → PyStr)
    (nameSpace apiImage webImage : PyStr) :
    Ensures (fun world => world = ⟨image, []⟩) (runDrill cluster nameSpace apiImage webImage)
      (fun previous world => Untouched image apiImage webImage world ∧ Restored image world ∧
        ∀ deployment, previous.previousFor deployment = strip (image deployment))
      (fun error world => Untouched image apiImage webImage world ∧
        ((∀ text, error ≠ .restoreFailed text) → Restored image world)) := by
  -- Until the rollout begins, an error leaves everything as it was.
  have early : ∀ world, Pristine image world → Untouched image apiImage webImage world ∧
      Restored image world :=
    fun world pristine => ⟨fun deployment _ => pristine.framed deployment List.not_mem_nil,
      pristine.restored⟩
  have raises : ∀ (error : Raised) world, Pristine image world →
      Untouched image apiImage webImage world ∧
        ((∀ text, error ≠ .restoreFailed text) → Restored image world) :=
    fun error world pristine => ⟨(early world pristine).1, fun _ => (early world pristine).2⟩
  have starts : ∀ world, world = ⟨image, []⟩ → Pristine image world := by
    rintro world rfl
    exact ⟨rfl, fun command member => by cases member⟩
  have stable := Pristine.stable image
  apply ((validateImageReference_ensures apiImage _).mono starts (fun _ _ => id) raises).bind
  intro api
  apply Ensures.given
  rintro rfl
  apply ((validateImageReference_ensures webImage _).mono (fun _ => id) (fun _ _ => id) raises).bind
  intro web
  apply Ensures.given
  rintro rfl
  apply (snapshotImages_ensures.mono (fun _ => id)
    (fun previous world holds => And.intro holds.2 holds.1) raises).bind
  intro previous
  apply Ensures.given
  intro isSnapshot
  apply Ensures.through (fun _ => Pristine image)
  · apply Ensures.forM fun _ => Pristine image
    intro done current rest whole
    apply ((validateImageReference_ensures current _).mono (fun _ => id) (fun _ _ => id)
      raises).bind
    exact fun _ => Ensures.pure fun world holds => holds.2
  intro _
  apply Ensures.through (fun _ => Pristine image)
  · exact (Ensures.raiseIf fun _ => raises _).mono (fun _ => id) (fun _ _ holds => holds.2)
      (fun _ _ => id)
  intro _
  apply ((preflight_ensures stable nameSpace api web).mono (fun _ => id) (fun _ _ => id)
    raises).bind
  intro _
  have done := @drill_ensures cluster image (changedDeployments previous api web) previous
    isSnapshot api web
  apply (done.mono (fun world => Pristine.framed) (fun _ _ => id)
    fun error world holds => ⟨holds.1.untouched isSnapshot, holds.2⟩).bind
  intro _
  apply Ensures.pure
  exact fun world holds => ⟨holds.1.untouched isSnapshot, holds.2, isSnapshot⟩

/-- However commands and smoke tests fail, the drill leaves every image reading as it did unless
it raises the error that reports a failed restore, and it never touches a deployment whose image
is the candidate already. -/
theorem drill_restores (cluster : Cluster) (image : Deployment → PyStr)
    (nameSpace apiImage webImage : PyStr) :
    ((∀ text, ((runDrill cluster nameSpace apiImage webImage).from ⟨image, []⟩).1 ≠
        .error (.restoreFailed text)) →
      ∀ deployment, strip (((runDrill cluster nameSpace apiImage webImage).from
        ⟨image, []⟩).2.image deployment) = strip (image deployment)) ∧
    (∀ previous, ((runDrill cluster nameSpace apiImage webImage).from ⟨image, []⟩).1 =
        .ok previous →
      ∀ deployment, previous.previousFor deployment = strip (image deployment)) ∧
    ∀ deployment, strip (image deployment) = candidateFor apiImage webImage deployment →
      ((runDrill cluster nameSpace apiImage webImage).from ⟨image, []⟩).2.image deployment =
          image deployment ∧
        ∀ command ∈ ((runDrill cluster nameSpace apiImage webImage).from ⟨image, []⟩).2.issued,
          ¬ command.touches deployment := by
  have ends := runDrill_ensures cluster image nameSpace apiImage webImage ⟨image, []⟩ rfl
  cases reached : (runDrill cluster nameSpace apiImage webImage).from ⟨image, []⟩ with
  | mk result world =>
    rw [reached] at ends
    cases result with
    | ok previous =>
      obtain ⟨untouched, restored, isSnapshot⟩ := ends
      refine ⟨fun _ => restored, fun other same => ?_, untouched⟩
      rw [Except.ok.injEq] at same
      exact same ▸ isSnapshot
    | error raised =>
      obtain ⟨untouched, restored⟩ := ends
      refine ⟨fun other => restored fun text same => ?_, fun previous same => ?_, untouched⟩
      · exact other text (same ▸ rfl)
      · cases same

/-- An image by the digit its digest repeats. -/
def imageOf (digit : Fin 0x110000) : PyStr := py "app@sha256:" ++ List.replicate 64 digit

/-- A cluster on which waiting for the first rollout fails, and nothing else does. -/
def timingOut : Cluster := fun issued =>
  ⟨if issued = 12 then some (.drill (py "timed out")) else none, true, py "yes", []⟩

/-- What is deployed before the drill: the candidate of the web deployment is there already. -/
def deployedBefore : Deployment → PyStr
  | .api => imageOf 0x31
  | .worker => imageOf 0x32
  | .web => imageOf 0x33

theorem drill_restores_timeout :
    ∀ deployment, strip (((runDrill timingOut (py "nexora") (imageOf 0x61) (imageOf 0x33)).from
      ⟨deployedBefore, []⟩).2.image deployment) = strip (deployedBefore deployment) := by
  have timesOut : ((runDrill timingOut (py "nexora") (imageOf 0x61) (imageOf 0x33)).from
      ⟨deployedBefore, []⟩).1 = .error (.drill (py "timed out")) := by decide +kernel
  refine (drill_restores timingOut deployedBefore (py "nexora") (imageOf 0x61)
    (imageOf 0x33)).1 fun text same => ?_
  rw [timesOut] at same
  cases same

end Nexora.Staging
