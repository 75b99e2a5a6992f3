import Nexora.Connector.Provision
import Nexora.Data.Identifier
import Nexora.Data.Members

/-!
# Names and targets of connector tools

A connector's identifier is a slug and holds no dot, so the name of a tool tells the connector
and the capability; an identifier's text has one length, so a target tells the connection.
-/

namespace Nexora.Connector

open Nexora.Std Nexora.Tools Nexora.Integration Json

theorem not_dot_of_isSlug {text : String} (slug : isSlug text = true) : '.' ∉ text.toList := by
  have inWord : ∀ letters : List Char,
      (isWords.inWord (· == '-') letters = true → '.' ∉ letters) ∧
        (isWords.startsWord (· == '-') letters = true → '.' ∉ letters) := by
    intro letters
    induction letters with
    | nil => simp
    | cons letter rest ih =>
      obtain ⟨within, starting⟩ := ih
      refine ⟨?_, ?_⟩
      · intro fits
        rw [isWords.inWord] at fits
        split at fits
        case isTrue separates =>
          rw [beq_iff_eq] at separates
          simp [separates, starting fits]
        case isFalse =>
          rw [Bool.and_eq_true] at fits
          have other : letter ≠ '.' := by
            rintro rfl
            exact absurd fits.1 (by decide)
          simp [Ne.symm other, within fits.2]
      · intro fits
        rw [isWords.startsWord, Bool.and_eq_true] at fits
        have other : letter ≠ '.' := by
          rintro rfl
          exact absurd fits.1 (by decide)
        simp [Ne.symm other, within fits.2]
  unfold isSlug isWords at slug
  split at slug
  case h_1 letters empty => simp [empty]
  case h_2 letters head tail cons =>
    rw [Bool.and_eq_true] at slug
    have other : head ≠ '.' := by
      rintro rfl
      exact absurd slug.1 (by decide)
    rw [cons]
    simp [Ne.symm other, (inWord tail).1 slug.2]

/-- What stands before a separator is known by the first one. -/
theorem append_separator_injective {Item : Type} {separator : Item}
    {first second firstRest secondRest : List Item} (firstClean : separator ∉ first)
    (secondClean : separator ∉ second)
    (same : first ++ separator :: firstRest = second ++ separator :: secondRest) :
    first = second ∧ firstRest = secondRest := by
  induction first generalizing second with
  | nil =>
    cases second with
    | nil => exact ⟨rfl, (List.cons.inj same).2⟩
    | cons head tail =>
      have isHead := (List.cons.inj same).1
      exact absurd (by simp [isHead]) secondClean
  | cons head tail ih =>
    cases second with
    | nil =>
      have isHead := (List.cons.inj same).1
      exact absurd (by simp [isHead]) firstClean
    | cons other rest =>
      obtain ⟨isHead, tails⟩ := List.cons.inj same
      obtain ⟨sameTail, rests⟩ := ih
        (fun member => firstClean (List.mem_cons_of_mem _ member))
        (fun member => secondClean (List.mem_cons_of_mem _ member)) tails
      exact ⟨by rw [isHead, sameTail], rests⟩

/-- A tool's name tells the connector and the capability. -/
theorem toolName_injective {first second : ConnectorManifest}
    {firstEndpoint secondEndpoint : ConnectorEndpoint} (firstSlug : isSlug first.id = true)
    (secondSlug : isSlug second.id = true)
    (same : toolName first firstEndpoint = toolName second secondEndpoint) :
    first.id = second.id ∧ firstEndpoint.capability = secondEndpoint.capability := by
  have texts := congrArg String.toList (py_injective same)
  simp only [String.toList_append] at texts
  have dot : (".").toList = ['.'] := rfl
  rw [dot, List.append_assoc, List.append_assoc, List.singleton_append,
    List.singleton_append] at texts
  obtain ⟨ids, capabilities⟩ := append_separator_injective (not_dot_of_isSlug firstSlug)
    (not_dot_of_isSlug secondSlug) texts
  exact ⟨String.toList_inj.mp ids, String.toList_inj.mp capabilities⟩

/-- A tool's calls go to a connection exactly when its target begins with the connection's
text. -/
theorem prefix_remoteName {first second : Uuid} {capability : String}
    (firstBounded : first < 2 ^ 128) (secondBounded : second < 2 ^ 128) :
    (first.text ++ ":").toList <+: (remoteName second capability).toList ↔ first = second := by
  constructor
  · rintro ⟨rest, same⟩
    rw [remoteName] at same
    simp only [String.toList_append, List.append_assoc] at same
    have texts := (List.append_inj same (by
      rw [Uuid.length_text firstBounded, Uuid.length_text secondBounded])).1
    exact Uuid.text_injective firstBounded secondBounded (String.toList_inj.mp texts)
  · rintro rfl
    exact ⟨capability.toList, by simp [remoteName]⟩

/-- Where calls of a tool go. -/
def Targets (tool : Run.ToolDefinition) (integrationId : Uuid) : Prop :=
  integrationId < 2 ^ 128 ∧ ∃ capability, tool.remoteName = remoteName integrationId capability

/-- A tool's calls go to one connection. -/
theorem Targets.unique {tool : Run.ToolDefinition} {first second : Uuid}
    (one : Targets tool first) (other : Targets tool second) : first = second := by
  obtain ⟨firstBounded, capability, firstRemote⟩ := one
  obtain ⟨secondBounded, again, secondRemote⟩ := other
  have within : (first.text ++ ":").toList <+: (remoteName second again).toList := by
    rw [← secondRemote, firstRemote]
    exact (prefix_remoteName firstBounded firstBounded).mpr rfl
  exact (prefix_remoteName firstBounded secondBounded).mp within

end Nexora.Connector
