import Ranger.Foundation.Glob
import Ranger.Model

/-! # Resource matchers

The matchers a policy is compiled to, one for each resource level it constrains.
A matcher keeps what it was initialised with; the fields the source computes in
`init` are functions of it.
-/

namespace Ranger

open Foundation

variable [Platform]

def WILDCARD_ASTERISK : Char := '*'

def OPTION_IGNORE_CASE : String := "ignoreCase"

def OPTION_WILD_CARD : String := "wildCard"

def OPTION_PATH_SEPERATOR : String := "pathSeparatorChar"

def DEFAULT_PATH_SEPERATOR_CHAR : Char := '/'

/-- The pattern a text stands for in `FilenameUtils.wildcardMatch`. -/
def wildcardTokens (pattern : String) : List (Glob.Token Char) :=
  pattern.toList.map fun char =>
    if char = '*' then .many else if char = '?' then .one else .literal char

/-- `FilenameUtils.wildcardMatch`, letters being compared through `fold`. -/
def wildcardMatch (fold : Char → Char) (text : List Char) (pattern : String) : Bool :=
  Glob.accepts fold (wildcardTokens pattern) text

/-- `RangerAbstractResourceMatcher`, initialised with the matcher options of a
resource definition and the values of a policy. -/
structure RangerAbstractResourceMatcher where
  options : AssocMap String String
  policyResource : RangerPolicyResource

namespace RangerAbstractResourceMatcher

variable (matcher : RangerAbstractResourceMatcher)

def getOption (name : String) : Option String := matcher.options.get? name

def getBooleanOption (name : String) (defaultValue : Bool) : Bool :=
  match matcher.getOption name with
  | none => defaultValue
  | some value => if value.isEmpty then defaultValue else parseBoolean value

def getCharOption (name : String) (defaultValue : Char) : Char :=
  match matcher.getOption name with
  | none => defaultValue
  | some value => value.toList.headD defaultValue

def optIgnoreCase : Bool := matcher.getBooleanOption OPTION_IGNORE_CASE true

def optWildCard : Bool := matcher.getBooleanOption OPTION_WILD_CARD true

/-- The values of the policy, the empty ones skipped. -/
def policyValues : List String := matcher.policyResource.values.filter fun value => !value.isEmpty

def policyIsExcludes : Bool := matcher.policyResource.isExcludes

/-- Whether a value consists of asterisks only or there is no value. -/
def isMatchAny : Bool :=
  matcher.policyValues.any (containsOnly · WILDCARD_ASTERISK) || matcher.policyValues.isEmpty

/-- The letters two names are compared by. -/
def fold (char : Char) : Char := if matcher.optIgnoreCase then foldCase char else char

/-- Equality of a name with a policy value, up to the case option. -/
def equalsValue (resource policyValue : String) : Bool :=
  if matcher.optIgnoreCase then equalsIgnoreCase resource policyValue else resource == policyValue

/-- `RangerAbstractResourceMatcher.isSingleAndExactMatch`. -/
def isSingleAndExactMatch (resource : Option String) : Bool :=
  match matcher.policyValues with
  | [] => isEmptyValue resource
  | [policyValue] =>
      let ret :=
        match resource with
        | none => false
        | some resource =>
            if matcher.isMatchAny then containsOnly resource WILDCARD_ASTERISK
            else matcher.equalsValue resource policyValue
      if matcher.policyIsExcludes then !ret else ret
  | _ :: _ :: _ => false

/-- The comparison of a name with one value in a matcher without recursion. -/
def matchesValue (resource policyValue : String) : Bool :=
  if matcher.optWildCard then wildcardMatch matcher.fold resource.toList policyValue
  else matcher.equalsValue resource policyValue

end RangerAbstractResourceMatcher

/-- The resource matchers of the program, by their class. -/
inductive RangerResourceMatcher where
  | default (base : RangerAbstractResourceMatcher)
  | path (base : RangerAbstractResourceMatcher)

/-- `RangerDefaultResourceMatcher.isMatch`. -/
def RangerDefaultResourceMatcher.isMatch (matcher : RangerAbstractResourceMatcher)
    (resource : Option String) : Bool :=
  let ret :=
    match resource with
    | none => matcher.isMatchAny
    | some resource =>
        matcher.isMatchAny || matcher.policyValues.any (matcher.matchesValue resource)
  if matcher.policyIsExcludes then !ret else ret

namespace RangerPathResourceMatcher

variable (matcher : RangerAbstractResourceMatcher)

def policyIsRecursive : Bool := matcher.policyResource.isRecursive

def pathSeparatorChar : Char :=
  matcher.getCharOption OPTION_PATH_SEPERATOR DEFAULT_PATH_SEPERATOR_CHAR

/-- The values a name is compared with: behind a final separator of a recursive
value, any text is read. -/
def policyValuesForMatch : List String :=
  if policyIsRecursive matcher && matcher.optWildCard && !matcher.isMatchAny then
    matcher.policyValues.map fun policyValue =>
      if policyValue.toList.getLast? = some (pathSeparatorChar matcher) then
        policyValue.push WILDCARD_ASTERISK
      else policyValue
  else matcher.policyValues

/-- The paths the loop of `isRecursiveWildCardMatch` builds from the elements,
behind what it has built so far. -/
def builtPaths (separator : Char) : List Char → List (List Char) → List (List Char)
  | _, [] => []
  | built, element :: rest =>
      (built ++ element) :: builtPaths separator (built ++ element ++ [separator]) rest

/-- The initial separator of a path, kept in front of its elements. -/
def initialSeparator (separator : Char) (path : List Char) : List Char :=
  if path.head? = some separator then [separator] else []

/-- The paths that stand for a path and its ancestors. -/
def ancestorPaths (separator : Char) (path : List Char) : List (List Char) :=
  builtPaths separator (initialSeparator separator path) (split separator path)

/-- `RangerPathResourceMatcher.isRecursiveWildCardMatch`. -/
def isRecursiveWildCardMatch (pathToCheck : List Char) (wildcardPath : String)
    (separator : Char) (fold : Char → Char) : Bool :=
  if pathToCheck = [] then false
  else if split separator pathToCheck = [] then wildcardMatch fold pathToCheck wildcardPath
  else (ancestorPaths separator pathToCheck).any (wildcardMatch fold · wildcardPath)

/-- The comparison of a path with one value. -/
def matchesValue (resource policyValue : String) : Bool :=
  if policyIsRecursive matcher && matcher.optWildCard then
    isRecursiveWildCardMatch resource.toList policyValue (pathSeparatorChar matcher) matcher.fold
  else if policyIsRecursive matcher then
    (policyValue.toList.map matcher.fold).isPrefixOf (resource.toList.map matcher.fold)
  else matcher.matchesValue resource policyValue

/-- `RangerPathResourceMatcher.isMatch`. -/
def isMatch (resource : Option String) : Bool :=
  let ret :=
    match resource with
    | none => matcher.isMatchAny
    | some resource =>
        matcher.isMatchAny || (policyValuesForMatch matcher).any (matchesValue matcher resource)
  if matcher.policyIsExcludes then !ret else ret

end RangerPathResourceMatcher

namespace RangerResourceMatcher

def base : RangerResourceMatcher → RangerAbstractResourceMatcher
  | default base => base
  | path base => base

def isMatch : RangerResourceMatcher → Option String → Bool
  | default base => RangerDefaultResourceMatcher.isMatch base
  | path base => RangerPathResourceMatcher.isMatch base

def isSingleAndExactMatch (matcher : RangerResourceMatcher) (resource : Option String) : Bool :=
  matcher.base.isSingleAndExactMatch resource

/-- `RangerDefaultPolicyEvaluator.createResourceMatcher`. A class name that does
not name a matcher of the program cannot be instantiated and stands for the
default matcher. -/
def createResourceMatcher (resourceDef : RangerResourceDef) (resource : RangerPolicyResource) :
    RangerResourceMatcher :=
  if resourceDef.matcher = "org.apache.ranger.plugin.resourcematcher.RangerPathResourceMatcher"
  then path ⟨resourceDef.matcherOptions, resource⟩
  else default ⟨resourceDef.matcherOptions, resource⟩

end RangerResourceMatcher

end Ranger
