/-
Auth.Scope -- whose scope a token carries

A scope may come bare or qualified by one of the configured audiences (`Ours`).  The
check compares last segments, so it takes a scope qualified by any resource
(`scopeMatches_iff`), and misses our own qualified form of a scope with a slash in it.

* `foreign_scope_accepted`: a token for another resource's scope of the same name passes.
* `hasScope_exact`: for which tokens the check and the rule agree.
-/
import TypstMcp.Auth.Token
import TypstMcp.Theory.Pieces

namespace TypstMcp.Auth

open TypstMcp.Theory

set_option autoImplicit false

/-- The audiences a token may be for. -/
def OidcConfig.audiences (config : OidcConfig) : List String :=
  config.audience :: config.extraAudiences

/-- The scopes and roles of a token. -/
def Claims.permissions (claims : Claims) : List String :=
  claims.scp.elim [] splitWhitespace ++ claims.roles

/-- The scope as a resource qualifies it. -/
def OidcConfig.qualified (config : OidcConfig) (resource : String) : String :=
  resource ++ "/" ++ config.scope

/-- The configured scope, bare or qualified by one of our audiences. -/
def Ours (config : OidcConfig) (entry : String) : Prop :=
  entry = config.scope ∨ ∃ audience ∈ config.audiences, entry = config.qualified audience

/-- The configured scope's name, qualified by a resource that is none of our audiences. -/
def Foreign (config : OidcConfig) (entry : String) : Prop :=
  ∃ resource, resource ∉ config.audiences ∧ entry = config.qualified resource

/-- The check decides as the rule for this token. -/
def ScopeKept (config : OidcConfig) (claims : Claims) : Prop :=
  hasScope config claims = true ↔ ∃ entry ∈ claims.permissions, Ours config entry

/-! ## What the check compares -/

theorem scopeMatches_iff {wanted value : String} :
    scopeMatches wanted value = true ↔
      value = wanted ∨ '/' ∉ wanted.toList ∧ ∃ resource, value = resource ++ "/" ++ wanted := by
  have qualified : ∀ resource : String, value = resource ++ "/" ++ wanted ↔
      value.toList = resource.toList ++ '/' :: wanted.toList := by
    intro resource
    rw [← String.toList_inj]
    simp
  unfold scopeMatches
  rw [Bool.or_eq_true, decide_eq_true_iff, decide_eq_true_iff, Pieces.getLast?_splitOn,
    String.toList_inj]
  constructor
  · rintro (same | ⟨free, same | ⟨front, cut⟩⟩)
    · exact .inl same
    · exact .inl same
    · exact .inr ⟨free, String.ofList front, (qualified _).2 (by rw [String.toList_ofList, cut])⟩
  · rintro (same | ⟨free, resource, cut⟩)
    · exact .inl same
    · exact .inr ⟨free, .inr ⟨resource.toList, (qualified _).1 cut⟩⟩

variable {config : OidcConfig} {claims : Claims}

theorem hasScope_iff :
    hasScope config claims = true ↔ ∃ entry ∈ claims.permissions, entry = config.scope ∨
      '/' ∉ config.scope.toList ∧ ∃ resource, entry = config.qualified resource := by
  have any : hasScope config claims = claims.permissions.any (scopeMatches config.scope) := by
    unfold hasScope Claims.permissions
    rw [List.any_append]
    cases claims.scp <;> rfl
  rw [any, List.any_eq_true]
  simp only [scopeMatches_iff]
  rfl

/-- **When the check and the rule agree.**  For a plain scope: unless the scope is there qualified
by a stranger and in no form of ours.  For a scope with a slash: unless it is there qualified by
us and never bare. -/
theorem hasScope_exact (config : OidcConfig) (claims : Claims) :
    ScopeKept config claims ↔
      if '/' ∈ config.scope.toList then
        (∃ audience ∈ config.audiences, config.qualified audience ∈ claims.permissions) →
          config.scope ∈ claims.permissions
      else (∃ entry ∈ claims.permissions, Foreign config entry) →
        ∃ entry ∈ claims.permissions, Ours config entry := by
  unfold ScopeKept
  rw [hasScope_iff]
  split_ifs with slash
  · constructor
    · intro kept ⟨audience, ours, inside⟩
      obtain ⟨entry, inside, rfl | ⟨free, -⟩⟩ := kept.2 ⟨_, inside, .inr ⟨audience, ours, rfl⟩⟩
      · exact inside
      · exact (free slash).elim
    · intro bare
      constructor
      · rintro ⟨entry, inside, rfl | ⟨free, -⟩⟩
        · exact ⟨_, inside, .inl rfl⟩
        · exact (free slash).elim
      · rintro ⟨entry, inside, rfl | ⟨audience, ours, rfl⟩⟩
        · exact ⟨_, inside, .inl rfl⟩
        · exact ⟨_, bare ⟨audience, ours, inside⟩, .inl rfl⟩
  · constructor
    · rintro kept ⟨entry, inside, resource, -, rfl⟩
      exact kept.1 ⟨_, inside, .inr ⟨slash, resource, rfl⟩⟩
    · intro covered
      constructor
      · rintro ⟨entry, inside, rfl | ⟨-, resource, rfl⟩⟩
        · exact ⟨_, inside, .inl rfl⟩
        · by_cases ours : resource ∈ config.audiences
          · exact ⟨_, inside, .inr ⟨resource, ours, rfl⟩⟩
          · exact covered ⟨_, inside, resource, ours, rfl⟩
      · rintro ⟨entry, inside, rfl | ⟨audience, ours, rfl⟩⟩
        · exact ⟨_, inside, .inl rfl⟩
        · exact ⟨_, inside, .inr ⟨slash, audience, rfl⟩⟩

/-! ## A scope of another resource -/

def sampleConfig : OidcConfig where
  issuer := "https://login.example.com/v2.0"
  audience := "api://typst-mcp"
  scope := "render"

/-- **A scope for a different resource satisfies ours.** -/
theorem foreign_scope_accepted :
    ¬ ScopeKept sampleConfig { sub := "s", iss := "i", scp := some "api://other/render" } := by
  intro kept
  have passes : hasScope sampleConfig { sub := "s", iss := "i", scp := some "api://other/render" } =
      true := by decide +kernel
  obtain ⟨entry, inside, ours⟩ := kept.1 passes
  have only : Claims.permissions { sub := "s", iss := "i", scp := some "api://other/render" } =
      ["api://other/render"] := by decide +kernel
  rw [only, List.mem_singleton] at inside
  subst inside
  rcases ours with same | ⟨audience, listed, same⟩
  · revert same
    decide
  · obtain rfl : audience = "api://typst-mcp" := by simpa [OidcConfig.audiences, sampleConfig] using listed
    revert same
    decide +kernel

end TypstMcp.Auth
