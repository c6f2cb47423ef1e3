/-!
# Request tokens

A token is issued before each request; the response to a request is wanted only as long as no later
token has been issued.
-/

namespace EntitySearch

/-- The mark of one request. -/
structure RequestToken where
  number : UInt64
  deriving DecidableEq

/-- The source of tokens, which remembers the latest one. -/
structure RequestTokens where
  /-- Number of the latest request, zero before the first one. -/
  latest : UInt64
  deriving DecidableEq

namespace RequestTokens

/-- The source before the first token. -/
def initial : RequestTokens := ⟨0⟩

/-- Issue the next token. -/
def issue (tokens : RequestTokens) : RequestToken × RequestTokens :=
  (⟨tokens.latest + 1⟩, ⟨tokens.latest + 1⟩)

/-- No later token has been issued. -/
def isCurrent (tokens : RequestTokens) (token : RequestToken) : Bool :=
  tokens.latest == token.number

end RequestTokens

end EntitySearch
