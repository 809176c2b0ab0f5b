import Ranger.Model

/-! # Condition evaluators

A condition of a policy item is checked by an instance of the class its
definition names. Classes are found by name at run time, so what they are is
left open; the address matcher is one the program brings along.
-/

namespace Ranger

open Foundation

/-- An initialised evaluator, by its answers. -/
abbrev RangerConditionEvaluator := RangerAccessRequest → Bool

/-- A class of evaluators, by what `init` makes of a definition and a condition. -/
abbrev RangerConditionEvaluatorClass :=
  RangerPolicyConditionDef → RangerPolicyItemCondition → RangerConditionEvaluator

/-- The classes that can be found and instantiated by name. -/
class ClassLoader where
  newConditionEvaluator : String → Option RangerConditionEvaluatorClass

/-- `RangerIpMatcher`. -/
structure RangerIpMatcher where
  exactIps : List String := []
  wildCardIps : List String := []
  allowAny : Bool := false

namespace RangerIpMatcher

/-- The text behind the leading groups of a separator and an asterisk. -/
def afterGroups (separator : Char) : List Char → List Char
  | first :: second :: rest =>
      if first = separator ∧ second = '*' then afterGroups separator rest
      else first :: second :: rest
  | text => text

/-- Whether a text begins with a group of a separator and an asterisk. -/
def beginsWithGroup (separator : Char) : List Char → Bool
  | first :: second :: _ => decide (first = separator ∧ second = '*')
  | _ => false

/-- What `$` allows to follow: nothing, or a line terminator that ends the text. -/
def isFinalTerminator (text : List Char) : Bool :=
  [[], ['\n'], ['\r', '\n'], ['\r'], ['\u0085'], ['\u2028'], ['\u2029']].contains text

/-- The pattern `allWildcards`. -/
def allWildcards : List Char → Bool
  | [] => false
  | first :: rest => first == '*' && (afterGroups '.' rest == [] || afterGroups ':' rest == [])

/-- `replaceFirst` of the trailing groups of a separator and an asterisk by the
separator. -/
def replaceTrailingWildcards (separator : Char) : List Char → List Char
  | [] => []
  | char :: rest =>
      if beginsWithGroup separator (char :: rest) &&
          isFinalTerminator (afterGroups separator (char :: rest)) then
        separator :: afterGroups separator (char :: rest)
      else char :: replaceTrailingWildcards separator rest

variable [Platform]

def digestPolicyIp (policyIp : String) : String :=
  if allWildcards policyIp.toList then ""
  else if policyIp.toList.contains '.' then
    String.ofList (replaceTrailingWildcards '.' policyIp.toList)
  else Platform.lowerCase (String.ofList (replaceTrailingWildcards ':' policyIp.toList))

/-- One turn of the loop of `init`. -/
def addIp (matcher : RangerIpMatcher) (ip : String) : RangerIpMatcher :=
  let digestedIp := digestPolicyIp ip
  if digestedIp.isEmpty then { matcher with allowAny := true }
  else if digestedIp = ip then { matcher with exactIps := matcher.exactIps ++ [ip] }
  else { matcher with wildCardIps := matcher.wildCardIps ++ [digestedIp] }

def init (condition : RangerPolicyItemCondition) : RangerIpMatcher :=
  if condition.values.isEmpty then { allowAny := true }
  else if condition.values.contains "*" then { allowAny := true }
  else condition.values.foldl addIp {}

/-- `String.startsWith`. -/
def startsWith (text start : String) : Bool := start.toList.isPrefixOf text.toList

def isWildcardMatched (ips : List String) (requestIp : String) : Bool :=
  ips.any fun ip => (requestIp.toList.contains '.' && startsWith requestIp ip) ||
    startsWith (Platform.lowerCase requestIp) ip

def isExactlyMatched (ips : List String) (requestIp : String) : Bool :=
  if requestIp.toList.contains '.' then ips.contains requestIp
  else ips.contains (Platform.lowerCase requestIp)

def isMatched (matcher : RangerIpMatcher) (request : RangerAccessRequest) : Bool :=
  if matcher.allowAny then true
  else
    match request.clientIPAddress with
    | none => true
    | some requestIp =>
        isWildcardMatched matcher.wildCardIps requestIp ||
          isExactlyMatched matcher.exactIps requestIp

end RangerIpMatcher

/-- A class path on which the address matcher is found. -/
@[reducible] def ClassLoader.addresses [Platform] : ClassLoader where
  newConditionEvaluator className :=
    if className = "org.apache.ranger.plugin.conditionevaluator.RangerIpMatcher" then
      some fun _ condition => (RangerIpMatcher.init condition).isMatched
    else none

end Ranger
