import Ranger.Admin.PolicyValidator
import Ranger.Foundation.Report

/-! # Validation of services and service definitions

The objects are modelled with their references: a text may be null, and an id is a `Long`
object, because the validators compare ids as objects.
-/

namespace Ranger

open Foundation Foundation.Report ValidationFailureDetails

/-- A `Long`: its number and the object that holds it. -/
structure BoxedLong where
  value : Int
  object : Nat
  deriving DecidableEq

namespace BoxedLong

/-- `Long.valueOf` keeps one object for each of these numbers. -/
def isCached (number : BoxedLong) : Bool := decide (-128 ≤ number.value ∧ number.value ≤ 127)

/-- `==` on two objects. -/
def isSameObject (first second : BoxedLong) : Bool :=
  first.value == second.value && (first.isCached || first.object == second.object)

end BoxedLong

/-- The order in which a hash set of texts and null is iterated. -/
class SetOrder where
  order : List (Option String) → List (Option String)
  order_perm : ∀ texts, (order texts).Perm texts

/-- The order of insertion. -/
@[reducible] def SetOrder.asGiven : SetOrder where
  order := id
  order_perm _ := List.Perm.refl _

namespace Boxed

structure RangerAccessTypeDef where
  name : Option String
  impliedGrants : List (Option String) := []

structure RangerServiceConfigDef where
  name : Option String
  mandatory : Bool := false

/-- An enumeration; an element is null or has a name, which may be null. -/
structure RangerEnumDef where
  name : Option String
  elements : List (Option (Option String)) := []
  defaultIndex : Option Int := none

structure RangerServiceDef where
  id : Option BoxedLong := none
  name : Option String
  configs : List RangerServiceConfigDef := []
  accessTypes : List RangerAccessTypeDef := []
  enums : List (Option RangerEnumDef) := []

/-- A service; of its configuration the names of the parameters are read. -/
structure RangerService where
  id : Option BoxedLong := none
  name : Option String
  type : Option String
  configs : List (Option String) := []

end Boxed

namespace RangerValidator

/-- `StringUtils.isBlank`. -/
def isBlankText (text : Option String) : Bool := text.all isBlank

/-- A text as a part of a message. -/
def nullText (text : Option String) : String := text.getD "null"

/-- A collection of texts as a part of a message. -/
def textsText (texts : List (Option String)) : String := listText (texts.map nullText)

def getEnumDefaultIndex (enumDef : Boxed.RangerEnumDef) : Int := enumDef.defaultIndex.getD 0

/-- The finders of one kind of object; they answer with new objects, or throw. -/
structure Lookups (α : Type) where
  byId : Int → Throws (Option α)
  byName : String → Throws (Option α)

section Identity

variable {α : Type} (kind : String) (lookups : Lookups α) (idOf : α → Option BoxedLong)
  (id : Option BoxedLong) (name : Option String) (action : Action)

def findByName : Option α := RangerPolicyValidator.answer (lookups.byName (name.getD ""))

/-- The id of an updated object is that of a stored one. -/
def isValidId : Report ValidationFailureDetails :=
  if action = .update then
    match id with
    | none => reject (missingValue "id" (kind ++ " id was null/empty/blank"))
    | some id =>
        match RangerPolicyValidator.answer (lookups.byId id.value) with
        | none => reject (incorrectValue "id" ("no " ++ kind ++ " exists with id[" ++
            toString id.value ++ "]"))
        | some _ => accept
  else accept

/-- The name is given, and no other object has it. -/
def isValidName : Report ValidationFailureDetails :=
  if isBlankText name then
    reject (missingValue "name" (kind ++ " name[" ++ nullText name ++ "] was null/empty/blank"))
  else
    match findByName lookups name with
    | none => accept
    | some other =>
        if action = .create then
          reject (incorrectValue "name" (kind ++ " with the name[" ++ nullText name ++
            "] already exists"))
        else
          match idOf other with
          | none => accept
          | some otherId =>
              -- `!=` compares the two objects
              if id.any otherId.isSameObject then accept
              else reject (incorrectValue "id/name" ("id/name conflict: another " ++ kind ++
                " already exists with name[" ++ nullText name ++ "], its id is [" ++
                  toString otherId.value ++ "]"))

end Identity

/-- What the validators ask the store for. -/
structure Store where
  services : Lookups Boxed.RangerService
  serviceDefs : Lookups Boxed.RangerServiceDef

end RangerValidator

namespace RangerServiceDefValidator

open RangerValidator

section AccessTypes

variable [Platform] [SetOrder]

/-- The name of an access type or an enumeration as it is compared. -/
def nameKey (name : Option String) : Option String :=
  if isBlankText name then none else name.map Platform.lowerCase

/-- An implied grant as it is compared; a blank one stays as it is. -/
def grantKey (grant : Option String) : Option String :=
  if isBlankText grant then grant else grant.map Platform.lowerCase

/-- `RangerValidator.getImpliedGrants`. -/
def getImpliedGrants (accessType : Boxed.RangerAccessTypeDef) : List (Option String) :=
  accessType.impliedGrants.map grantKey

def blankAccessTypeName (accessType : Boxed.RangerAccessTypeDef) : ValidationFailureDetails :=
  missingValue "access type name" ("access type name[" ++ nullText accessType.name ++
    "] is null/empty")

def repeatedAccessTypeName (accessType : Boxed.RangerAccessTypeDef) : ValidationFailureDetails :=
  incorrectValue "access type name" ("duplicate access type names in access types collection: [" ++
    nullText accessType.name ++ "]") accessType.name

/-- Of the unknown grants the first is named apart. -/
def unknownGrants (accessType : Boxed.RangerAccessTypeDef) (first : Option String)
    (unknown : List (Option String)) : ValidationFailureDetails :=
  incorrectValue "implied grants" ("implied grant[" ++ textsText (getImpliedGrants accessType) ++
    "] contains an unknown access types[" ++ textsText unknown ++ "]") first

def impliesItself (accessType : Boxed.RangerAccessTypeDef) : ValidationFailureDetails :=
  incorrectValue "implied grants" ("implied grants list [" ++
    textsText (getImpliedGrants accessType) ++ "] for access type[" ++ nullText accessType.name ++
      "] contains itself") accessType.name

/-- The implied grants no access type has the name of. -/
def unknownAccessTypes (accessNames : List String) (accessType : Boxed.RangerAccessTypeDef) :
    List (Option String) :=
  (SetOrder.order (getImpliedGrants accessType).dedup).filter fun grant =>
    !accessNames.any (some · == grant)

def isValidImpliedGrants (accessNames : List String) (accessType : Boxed.RangerAccessTypeDef) :
    Report ValidationFailureDetails :=
  Report.both
    (match unknownAccessTypes accessNames accessType with
      | [] => accept
      | first :: others => reject (unknownGrants accessType first (first :: others)))
    -- the name is compared as it is written
    (if (getImpliedGrants accessType).contains accessType.name then
      reject (impliesItself accessType)
    else accept)

/-- First the names, then the grants of the access types that have some. -/
def isValidAccessTypes (accessTypeDefs : List Boxed.RangerAccessTypeDef) :
    Report ValidationFailureDetails :=
  let nameOf (accessType : Boxed.RangerAccessTypeDef) := nameKey accessType.name
  Report.both
    (names nameOf blankAccessTypeName repeatedAccessTypeName (fun _ => accept) [] accessTypeDefs)
    (all (isValidImpliedGrants (accessTypeDefs.foldl (seenWith nameOf) []))
      (accessTypeDefs.filter (!·.impliedGrants.isEmpty)))

end AccessTypes

section Enums

variable [Platform]

/-- The names of the elements of an enumeration. -/
def isValidEnumElements (elements : List (Option (Option String))) (enumName : Option String) :
    Report ValidationFailureDetails :=
  names (fun element => element.bind nameKey)
    (fun element =>
      match element with
      | none =>
          { missingValue "enum element" ("An enum element in enum element collection of enum [" ++
              nullText enumName ++ "] is null") with subFieldName := enumName }
      | some elementName =>
          { missingValue "enum element name" ("Name of an element of enum [" ++
              nullText enumName ++ "] is null/empty[" ++ nullText elementName ++ "]") with
            subFieldName := enumName })
    (fun element =>
      incorrectValue "enum element name" ("dumplicate enum element name [" ++
        nullText element.join ++ "] found for enum[" ++ nullText enumName ++ "]") enumName)
    (fun _ => accept) [] elements

/-- The elements of an enumeration and its default. -/
def isValidEnumContent (enumDef : Boxed.RangerEnumDef) : Report ValidationFailureDetails :=
  if enumDef.elements.isEmpty then
    reject { missingValue "enum values" ("enum [" ++ nullText enumDef.name ++
      "] does not have any elements") with subFieldName := enumDef.name }
  else
    Report.both (isValidEnumElements enumDef.elements enumDef.name)
      (let defaultIndex := getEnumDefaultIndex enumDef
      if defaultIndex < 0 ∨ enumDef.elements.length ≤ defaultIndex then
        reject (incorrectValue "enum default index" ("default index[" ++ toString defaultIndex ++
          "] for enum [" ++ nullText enumDef.name ++ "] is invalid") enumDef.name)
      else accept)

def isValidEnums (enumDefs : List (Option Boxed.RangerEnumDef)) :
    Report ValidationFailureDetails :=
  names (fun enumDef => enumDef.bind fun given => nameKey given.name)
    (fun enumDef =>
      match enumDef with
      | none => missingValue "enum def" "An enum def in enums collection is null"
      | some given =>
          missingValue "enum def name" ("enum name [" ++ nullText given.name ++ "] is null/empty"))
    (fun enumDef =>
      let enumName := enumDef.bind (·.name)
      incorrectValue "enum def name" ("dumplicate enum name [" ++ nullText enumName ++ "] found")
        enumName)
    (fun enumDef => (enumDef.map isValidEnumContent).getD accept) [] enumDefs

end Enums

section Valid

variable [Platform] [SetOrder] (store : Store)

/-- The checks of an object that was sent. -/
def checks (serviceDef : Boxed.RangerServiceDef) (action : Action) :
    Report ValidationFailureDetails :=
  Report.both (isValidId "service def" store.serviceDefs serviceDef.id action)
    (Report.both (isValidName "service def" store.serviceDefs (·.id) serviceDef.id serviceDef.name
        action)
      (Report.both
        (if serviceDef.accessTypes.isEmpty then
          reject (missingValue "access types" "access types collection was null/empty")
        else isValidAccessTypes serviceDef.accessTypes)
        (isValidEnums serviceDef.enums)))

/-- `isValid(RangerServiceDef, ...)`. -/
def isValid (serviceDef : Option Boxed.RangerServiceDef) (action : Action) :
    Throws (Report ValidationFailureDetails) :=
  if action = .delete then
    .error (some "isValid(RangerServiceDef, ...) is only supported for CREATE/UPDATE")
  else
    match serviceDef with
    | none => .ok (reject (missingValue "service def" "service def object passed in was null"))
    | some serviceDef => .ok (checks store serviceDef action)

end Valid

end RangerServiceDefValidator

namespace RangerServiceValidator

open RangerValidator

section Valid

variable [SetOrder] (store : Store)

/-- The type is that of a stored service definition. -/
def isValidType (type : Option String) : Report ValidationFailureDetails :=
  if isBlankText type then
    reject (missingValue "type" ("service def [" ++ nullText type ++ "] was null/empty/blank"))
  else
    match findByName store.serviceDefs type with
    | none => reject (incorrectValue "type" ("service def named[" ++ nullText type ++
        "] not found"))
    | some _ => accept

def getRequiredParameters (serviceDef : Boxed.RangerServiceDef) : List (Option String) :=
  ((serviceDef.configs.filter (·.mandatory)).map (·.name)).dedup

/-- The parameters the service definition requires are given. -/
def isValidConfigs (service : Boxed.RangerService) : Report ValidationFailureDetails :=
  if isBlankText service.name || isBlankText service.type then accept
  else
    match findByName store.serviceDefs service.type with
    | none => accept
    | some serviceDef =>
        match (SetOrder.order (getRequiredParameters serviceDef)).filter
            (!service.configs.contains ·) with
        | [] => accept
        | first :: others =>
            reject { missingValue "configuration"
              ("required configuration parameter is missing; missing parameters: " ++
                textsText (first :: others)) with subFieldName := first }

/-- The checks of an object that was sent. -/
def checks (service : Boxed.RangerService) (action : Action) : Report ValidationFailureDetails :=
  Report.both (isValidId "service" store.services service.id action)
    (Report.both (isValidName "service" store.services (·.id) service.id service.name action)
      (Report.both (isValidType store service.type) (isValidConfigs store service)))

/-- `isValid(RangerService, ...)`. -/
def isValid (service : Option Boxed.RangerService) (action : Action) :
    Throws (Report ValidationFailureDetails) :=
  if action = .delete then
    .error (some "isValid(RangerService, ...) is only supported for CREATE/UPDATE")
  else
    match service with
    | none => .ok (reject (missingValue "service" "service object passed in was null"))
    | some service => .ok (checks store service action)

end Valid

end RangerServiceValidator

end Ranger
