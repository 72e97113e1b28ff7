/-
# OpsAssist.LoggingSetup -- which keys hold secrets

`is_sensitive_key` decides by whole words: the lower-cased key is split at runs of
underscores and hyphens, and it is sensitive when a word is on the list or `api`
is followed by `key`.
-/
import OpsAssist.Host

namespace OpsAssist

set_option autoImplicit false

def sensitiveWords : List String :=
  ["password", "passwd", "secret", "token", "apikey", "authorization", "credential",
    "credentials"]

def redacted : String := "[REDACTED]"

/-- `re.split(r"[_\-]+", text)`: `word` is the word being read, backwards, and
`inRun` says that the last character was a separator. -/
def splitWords (word : List Char) (inRun : Bool) : List Char → List (List Char)
  | [] => [word.reverse]
  | c :: rest =>
      if c = '_' ∨ c = '-' then
        if inRun then splitWords [] true rest
        else word.reverse :: splitWords [] true rest
      else splitWords (c :: word) false rest

/-- Whether some word `api` is directly followed by `key`. -/
def apiKey : List (List Char) → Bool
  | a :: b :: rest => (a == ['a', 'p', 'i'] && b == ['k', 'e', 'y']) || apiKey (b :: rest)
  | _ => false

def isSensitiveKey (host : Host) (key : String) : Bool :=
  let words := splitWords [] false (host.lower key.toList)
  if words.any fun w => sensitiveWords.any fun s => w == s.toList then true
  else apiKey words

example : (splitWords [] false "x-api_-key_".toList).map String.ofList = ["x", "api", "key", ""] := by
  decide

end OpsAssist
