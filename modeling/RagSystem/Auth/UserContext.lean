import Mathlib.Data.List.Basic

/-! The authenticated identity of a request (`UserContext` of `proxy/app/auth/jwt.py`). -/

namespace RagSystem

structure UserContext where
  userId : String
  username : String
  roles : List String := []
  groups : List String := []
  accessLevel : String := "internal"
  nameSpace : String := ""
  deriving DecidableEq, Repr

namespace UserContext

def isAdmin (user : UserContext) : Bool := decide ("admin" ∈ user.roles)

def isAuthenticated (user : UserContext) : Bool := decide (user.userId ≠ "anonymous")

def anonymous : UserContext :=
  { userId := "anonymous", username := "anonymous", roles := ["viewer"], groups := ["everyone"],
    accessLevel := "public" }

end UserContext

end RagSystem
