import CodeScope.Version.Profile

/-!
# Supported versions

A version is supported if one of the profiles is of it, and this is the profile that is looked up.
-/

namespace CodeScope
namespace Profile

variable {version : Version} {profile : Profile}

theorem ofVersion_of_mem (member : profile ∈ all) : ofVersion profile.version = .ok profile := by
  simp only [all, List.mem_cons, List.not_mem_nil, or_false] at member
  rcases member with rfl | rfl | rfl | rfl | rfl <;> rfl

theorem ofVersion_eq_ok_iff :
    ofVersion version = .ok profile ↔ profile ∈ all ∧ profile.version = version := by
  constructor
  · intro supported
    rw [ofVersion] at supported
    split at supported
    · next found =>
        cases supported
        have same := List.find?_some found
        exact ⟨List.mem_of_find?_eq_some found, eq_of_beq same⟩
    · cases supported
  · rintro ⟨member, rfl⟩
    exact ofVersion_of_mem member

theorem version_of_ofVersion (supported : ofVersion version = .ok profile) :
    profile.version = version :=
  (ofVersion_eq_ok_iff.mp supported).2

end Profile
end CodeScope
