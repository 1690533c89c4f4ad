/-
Auth.Tenant -- the storage partition id

A `TenantId` carries the shape `TenantId::parse` checks, so one in hand is always
safe to use as a path segment.
-/
import Mathlib.Data.Bool.AllAny
import Mathlib.Tactic

namespace TypstMcp.Auth

set_option autoImplicit false

/-- Length of a derived tenant id, in base32 characters. -/
def tenantLen : Nat := 16

def alphabet : List Char := "0123456789abcdefghjkmnpqrstvwxyz".toList

/-- The check of `TenantId::parse`.  Its byte test admits only ASCII, so it is the
same test on characters. -/
def tenantShape (value : String) : Bool :=
  value.utf8ByteSize = tenantLen && value.toList.all (alphabet.contains ·)

/-- Of characters that take one byte each. -/
theorem utf8ByteSize_of_single {chars : List Char} (single : ∀ c ∈ chars, c.utf8Size = 1) :
    (String.ofList chars).utf8ByteSize = chars.length := by
  induction chars with
  | nil => rfl
  | cons c rest ih =>
      obtain ⟨here, later⟩ := List.forall_mem_cons.1 single
      rw [String.ofList_cons, String.utf8ByteSize_append, String.utf8ByteSize_singleton,
        ih later, here, List.length_cons]
      omega

theorem alphabet_single : ∀ c ∈ alphabet, c.utf8Size = 1 := List.all_iff_forall_prop.1 (by decide)

structure TenantId where
  str : String
  shape : tenantShape str = true
  deriving DecidableEq

namespace TenantId

@[ext] theorem ext {a b : TenantId} (same : a.str = b.str) : a = b := by
  cases a; cases b; simpa using same

/-- An id is sixteen characters, whichever way it came about. -/
theorem length (tenant : TenantId) : tenant.str.toList.length = tenantLen := by
  obtain ⟨size, within⟩ := Bool.and_eq_true_iff.1 tenant.shape
  have bytes : (String.ofList tenant.str.toList).utf8ByteSize = tenant.str.toList.length :=
    utf8ByteSize_of_single fun c inside =>
      alphabet_single c (List.contains_iff_mem.1 (List.all_eq_true.1 within c inside))
  rw [String.ofList_toList] at bytes
  rw [← bytes, of_decide_eq_true size]

/-- Accept an id that arrived from outside. -/
def parse (value : String) : Option TenantId :=
  if shape : tenantShape value = true then some ⟨value, shape⟩ else none

theorem parse_eq_some {value : String} {tenant : TenantId} :
    parse value = some tenant ↔ tenant.str = value := by
  unfold parse
  constructor
  · intro parsed
    split at parsed
    · exact (congrArg str (Option.some.inj parsed)).symm
    · simp at parsed
  · rintro rfl
    simp [tenant.shape]

end TenantId

end TypstMcp.Auth
