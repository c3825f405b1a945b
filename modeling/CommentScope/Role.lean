/-!
# Declaration roles

What a syntax node declares. Types and namespaces are members of their container as well, so they
carry the member role together with their own; `Role.isMemberOnly` singles out the declarations
that are members and nothing more, which are the ones reported as the member around a comment.
-/

namespace CommentScope

/-- The roles a declaration has; a node that declares nothing has none. -/
structure Role where
  isMember : Bool
  isType : Bool
  isNamespace : Bool
  deriving DecidableEq

namespace Role

/-- The role of a node that declares nothing. -/
def nothing : Role := ⟨false, false, false⟩

instance : Inhabited Role := ⟨nothing⟩

/-- A method, property, field or similar. -/
def member : Role := ⟨true, false, false⟩

/-- A class, interface, enumeration or similar. -/
def type : Role := ⟨true, true, false⟩

/-- A namespace. -/
def space : Role := ⟨true, false, true⟩

/-- A member that is neither a type nor a namespace. -/
def isMemberOnly (r : Role) : Bool := r.isMember && !r.isType && !r.isNamespace

/-- The roles as a number: one for member, two for type, four for namespace. -/
def toNat (r : Role) : Nat :=
  r.isMember.toNat + 2 * r.isType.toNat + 4 * r.isNamespace.toNat

/-- The roles whose number this is; higher bits are ignored. -/
def ofNat (n : Nat) : Role := ⟨n.testBit 0, n.testBit 1, n.testBit 2⟩

/-- **The number of a role determines it.** -/
theorem ofNat_toNat (r : Role) : ofNat r.toNat = r := by
  obtain ⟨m, t, n⟩ := r
  cases m <;> cases t <;> cases n <;> decide

theorem not_isType_of_isMemberOnly {r : Role} (h : r.isMemberOnly = true) : r.isType = false := by
  cases r; simp_all [isMemberOnly]

theorem not_isNamespace_of_isMemberOnly {r : Role} (h : r.isMemberOnly = true) :
    r.isNamespace = false := by
  cases r; simp_all [isMemberOnly]

end Role

end CommentScope
