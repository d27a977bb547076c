import TaskPlatform.Api.Request

/-!
# Access tokens

`app/security.py`.  PyJWT is a parameter; times are in microseconds, and an expiry is in
whole seconds as in the token.
-/

namespace TaskPlatform

/-- The claims of a token. -/
structure Payload where
  sub : Option String
  exp : Nat
  deriving DecidableEq

/-- PyJWT.  `decode` is given the current time, and returns nothing where the package
raises `InvalidTokenError`. -/
structure Jwt (Token : Type) where
  encode : Payload → (key algorithm : String) → Token
  decode : Token → (key : String) → (algorithms : List String) → (now : Nat) → Option Payload

/-- The settings of `app/config.py` that concern tokens. -/
structure TokenSettings where
  secretKey : String
  algorithm : String := "HS256"
  accessTokenExpireMinutes : Nat := 30

variable {Token : Type}

def createAccessToken (jwt : Jwt Token) (settings : TokenSettings) (now : Nat)
    (subject : String) : Token :=
  let expire := now + settings.accessTokenExpireMinutes * 60 * 1000000
  jwt.encode ⟨some subject, expire / 1000000⟩ settings.secretKey settings.algorithm

def decodeAccessToken (jwt : Jwt Token) (settings : TokenSettings) (now : Nat) (token : Token) :
    Option String :=
  (jwt.decode token settings.secretKey [settings.algorithm] now).bind Payload.sub

/-- What the documentation of the package promises of a token that is decoded with the key
it was encoded with: its claims come back, and it has not expired. -/
def Jwt.Faithful (jwt : Jwt Token) : Prop :=
  ∀ claims key algorithm now decoded,
    jwt.decode (jwt.encode claims key algorithm) key [algorithm] now = some decoded →
      decoded = claims ∧ now < claims.exp * 1000000

/-- A token lets its bearer in under the name it was created for, and only until it
expires. -/
theorem decodeAccessToken_create {jwt : Jwt Token} (hjwt : jwt.Faithful)
    {settings : TokenSettings} {issued now : Nat} {name subject : String}
    (h : decodeAccessToken jwt settings now (createAccessToken jwt settings issued name) =
      some subject) :
    subject = name ∧ now < issued + settings.accessTokenExpireMinutes * 60 * 1000000 := by
  obtain ⟨decoded, hdecode, hsub⟩ := Option.bind_eq_some_iff.mp h
  obtain ⟨rfl, hexp⟩ := hjwt _ _ _ _ _ hdecode
  refine ⟨(Option.some.inj hsub).symm, lt_of_lt_of_le hexp ?_⟩
  exact Nat.div_mul_le_self _ _

end TaskPlatform
