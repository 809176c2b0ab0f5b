import Ranger.Foundation.Delimited
import Ranger.Foundation.Outcome
import Ranger.Foundation.Split

/-! # Installer edits of configuration files

A configuration is a list of properties with a name and a value. The commands of the
installer add, change and delete properties, and edit the values as lists of tokens: they
look a token up in the whole value, and split the value at a delimiter that is taken for a
regular expression.
-/

namespace Ranger

open Foundation

/-- A text of a configuration file. -/
abbrev ConfigText := List Char

/-- A child of a property, with the node values of its own children. An element has none. -/
structure DomNode where
  nodeName : String
  childNodes : List (Option ConfigText)

/-- The document that is changed: its property elements, each with its children. -/
structure XmlConfigChanger where
  doc : List (List DomNode)

/-- What `String.split` makes of a text, or its failure. -/
abbrev RegexSplit := ConfigText → ConfigText → Except String (List ConfigText)

namespace XmlConfigChanger

def NAME_NODE_NAME : String := "name"

def VALUE_NODE_NAME : String := "value"

section Nodes

variable (propName val : ConfigText)

/-- Whether a property has the name; a name without a text throws. -/
def isNamed : List DomNode → Except String Bool
  | [] => .ok false
  | node :: nodes =>
      if node.nodeName = NAME_NODE_NAME then
        match node.childNodes with
        | some pName :: _ => if pName = propName then .ok true else isNamed nodes
        | _ => .error ("findProperty(" ++ String.ofList propName ++ ") failed.")
      else isNamed nodes

/-- The place of the first property of the name. -/
def findIn : List (List DomNode) → Except String (Option Nat)
  | [] => .ok none
  | property :: properties => do
      if ← isNamed propName property then .ok (some 0)
      else (findIn properties).map (·.map (· + 1))

/-- The text of the first value of a property. -/
def valueOf : List DomNode → Option ConfigText
  | [] => none
  | node :: nodes =>
      if node.nodeName = VALUE_NODE_NAME then
        match node.childNodes with
        | [] => some []
        | nodeValue :: _ => nodeValue
      else valueOf nodes

/-- The children of a value with another text; the node value of an element cannot be set. -/
def setChild : List (Option ConfigText) → List (Option ConfigText)
  | [] => [some val]
  | some _ :: rest => some val :: rest
  | none :: rest => none :: rest

/-- A property with another text in its first value, if it has one. -/
def withValue : List DomNode → Option (List DomNode)
  | [] => none
  | node :: nodes =>
      if node.nodeName = VALUE_NODE_NAME then
        some ({ node with childNodes := setChild val node.childNodes } :: nodes)
      else (withValue nodes).map (node :: ·)

end Nodes

section Properties

variable (changer : XmlConfigChanger) (propName val : ConfigText) (createIfNotExists : Bool)

def createNewElement : List DomNode :=
  [⟨NAME_NODE_NAME, [some propName]⟩, ⟨VALUE_NODE_NAME, [some val]⟩]

def addProperty : XmlConfigChanger := ⟨changer.doc ++ [createNewElement propName val]⟩

def findProperty : Except String (Option Nat) := findIn propName changer.doc

def getProperty : Except String (Option ConfigText) :=
  match changer.findProperty propName with
  | .error _ => .error ("getProperty(" ++ String.ofList propName ++ ") failed.")
  | .ok none => .ok none
  | .ok (some index) => .ok (changer.doc[index]?.bind valueOf)

/-- A property without a value counts as one that does not exist. -/
def modProperty : Except String XmlConfigChanger := do
  let found ← changer.findProperty propName
  match found.bind fun index => (changer.doc[index]?.bind (withValue val)).map (index, ·) with
  | some (index, property) => .ok ⟨changer.doc.set index property⟩
  | none =>
      if createIfNotExists then .ok (changer.addProperty propName val) else .ok changer

def delProperty : Except String XmlConfigChanger := do
  match ← changer.findProperty propName with
  | none => .ok changer
  | some index => .ok ⟨changer.doc.eraseIdx index⟩

end Properties

section Values

variable (appendDelimitor propValue curVal : ConfigText)

/-- The value with a token behind it. -/
def appendValue : ConfigText :=
  if curVal.isEmpty then propValue else curVal ++ (appendDelimitor ++ propValue)

/-- The tokens that are not the one to be deleted, put together again. -/
def joinOthers (valTokens : List ConfigText) : ConfigText :=
  valTokens.foldl (fun sb v =>
    if v = propValue then sb
    else if sb.isEmpty then v else sb ++ (appendDelimitor ++ v)) []

end Values

inductive ActionType where
  | add
  | mod
  | del
  | append
  | delval

end XmlConfigChanger

/-- A line of the file with the commands. -/
structure ConfigCommand where
  propName : ConfigText
  propValue : ConfigText
  actionType : XmlConfigChanger.ActionType
  createIfNotExists : Bool := false
  appendDelimitor : ConfigText := [' ']

namespace XmlConfigChanger

section Commands

variable (split : RegexSplit) (changer : XmlConfigChanger) (command : ConfigCommand)

def append : Except String XmlConfigChanger := do
  match ← changer.getProperty command.propName with
  | none =>
      if command.createIfNotExists then
        .ok (changer.addProperty command.propName command.propValue)
      else .ok changer
  | some curVal =>
      if command.propValue <:+: curVal then .ok changer
      else
        changer.modProperty command.propName
          (appendValue command.appendDelimitor command.propValue curVal) command.createIfNotExists

def delval : Except String XmlConfigChanger := do
  match ← changer.getProperty command.propName with
  | none => .ok changer
  | some curVal =>
      if command.propValue <:+: curVal then
        let valTokens ← split command.appendDelimitor curVal
        changer.modProperty command.propName
          (joinOthers command.appendDelimitor command.propValue valTokens)
          command.createIfNotExists
      else .ok changer

def perform : Except String XmlConfigChanger :=
  match command.actionType with
  | .add => .ok (changer.addProperty command.propName command.propValue)
  | .mod => changer.modProperty command.propName command.propValue command.createIfNotExists
  | .del => changer.delProperty command.propName
  | .append => changer.append command
  | .delval => changer.delval split command

end Commands

section Lens

variable {changer : XmlConfigChanger} {propName val curVal : ConfigText}

theorem exists_withValue (val : ConfigText) {property : List DomNode}
    (value : valueOf property = some curVal) :
    ∃ changed, withValue val property = some changed ∧ valueOf changed = some val ∧
      ∀ propName, isNamed propName changed = isNamed propName property := by
  induction property with
  | nil => nomatch value
  | cons node nodes ih =>
      unfold valueOf at value
      unfold withValue
      by_cases isValue : node.nodeName = VALUE_NODE_NAME
      · rw [if_pos isValue] at value ⊢
        refine ⟨_, rfl, ?_, fun propName => ?_⟩
        · unfold valueOf
          rw [if_pos isValue]
          revert value
          match node.childNodes with
          | [] => exact fun _ => rfl
          | some _ :: _ => exact fun _ => rfl
          | none :: _ => exact fun value => nomatch value
        · have other : node.nodeName ≠ NAME_NODE_NAME := by
            rw [isValue]
            decide
          unfold isNamed
          rw [if_neg other, if_neg other]
      · rw [if_neg isValue] at value ⊢
        obtain ⟨changed, written, read, named⟩ := ih value
        refine ⟨node :: changed, by rw [written]; rfl, ?_, fun propName => ?_⟩
        · unfold valueOf
          rw [if_neg isValue, read]
        · unfold isNamed
          rw [named]

theorem findIn_set {doc : List (List DomNode)} {index : Nat} {property changed : List DomNode}
    (found : findIn propName doc = .ok (some index)) (here : doc[index]? = some property)
    (same : isNamed propName changed = isNamed propName property) :
    findIn propName (doc.set index changed) = .ok (some index) := by
  induction doc generalizing index with
  | nil => nomatch here
  | cons first doc ih =>
      unfold findIn at found
      obtain ⟨named, answer, found⟩ := Outcome.bind_eq_ok.mp found
      cases named with
      | true =>
          cases found
          cases here
          exact Outcome.bind_eq_ok.mpr ⟨true, same.trans answer, rfl⟩
      | false =>
          obtain ⟨value, rest, shifted⟩ := Outcome.map_eq_ok.mp found
          obtain ⟨behind, rfl, rfl⟩ := Option.map_eq_some_iff.mp shifted
          have later := ih rest here
          refine Outcome.bind_eq_ok.mpr ⟨false, answer, ?_⟩
          exact Outcome.map_eq_ok.mpr ⟨some behind, later, rfl⟩

/-- What is written to a property with a value is read from it. -/
theorem modProperty_of_some (value : changer.getProperty propName = .ok (some curVal))
    (val : ConfigText) (createIfNotExists : Bool) :
    ∃ after, changer.modProperty propName val createIfNotExists = .ok after ∧
      after.getProperty propName = .ok (some val) := by
  unfold getProperty at value
  split at value
  · nomatch value
  · nomatch value
  · next index found =>
      obtain ⟨property, here, own⟩ := Option.bind_eq_some_iff.mp (Except.ok.inj value)
      obtain ⟨changed, written, read, named⟩ := exists_withValue val own
      have kept : findIn propName (changer.doc.set index changed) = .ok (some index) :=
        findIn_set found here (named propName)
      refine ⟨⟨changer.doc.set index changed⟩, ?_, ?_⟩
      · refine Outcome.bind_eq_ok.mpr ⟨some index, found, ?_⟩
        simp only [Option.bind_some, here, written, Option.map_some]
      · unfold getProperty findProperty
        rw [kept]
        simp only [List.getElem?_set_self (List.getElem?_eq_some_iff.mp here).1, Option.bind_some,
          read]

end Lens

/-- The pieces `String.split` gives for a delimiter that stands for itself: no empty one is
last, unless it is the only one. -/
def textPieces (delimiter text : ConfigText) : List ConfigText :=
  let pieces := splitAtText delimiter text
  if pieces.length = 1 then [text] else pieces.rdropWhile List.isEmpty

/-- The value has the token, behind or among those it had. -/
def Appends (delimiter token before after : ConfigText) : Prop :=
  token ∈ tokensOf delimiter after ∧ (tokensOf delimiter before).Sublist (tokensOf delimiter after)

/-- The value has the other tokens, and no longer the token. -/
def Deletes (delimiter token before after : ConfigText) : Prop :=
  token ∉ tokensOf delimiter after ∧
    ((tokensOf delimiter before).filter (· ≠ token)).Sublist (tokensOf delimiter after)

/-- **Exact edits.** A token is appended once, deleting takes it away, and deleting undoes
appending. -/
structure EditsExactly (split : RegexSplit) (changer : XmlConfigChanger)
    (command : ConfigCommand) (curVal : ConfigText) : Prop where
  append : ∃ after newVal, changer.append command = .ok after ∧
    after.getProperty command.propName = .ok (some newVal) ∧
    Appends command.appendDelimitor command.propValue curVal newVal ∧
    after.append command = .ok after
  delval : ∃ after newVal, changer.delval split command = .ok after ∧
    after.getProperty command.propName = .ok (some newVal) ∧
    Deletes command.appendDelimitor command.propValue curVal newVal
  undo : command.propValue ∉ tokensOf command.appendDelimitor curVal →
    ∃ after back, changer.append command = .ok after ∧ after.delval split command = .ok back ∧
      back.getProperty command.propName = .ok (some curVal)

/-- A token is deleted without losing empty ones at the ends; or it is no part of the value, the
first token is not empty and the last one fits in front of the delimiter. -/
def Regular (delimiter token curVal : ConfigText) : Prop :=
  (token ∈ tokensOf delimiter curVal ∧
    (token = [] ∨ (tokensOf delimiter curVal).getLast? ≠ some [] ∧
      ((tokensOf delimiter curVal).filter (· ≠ token)).head? ≠ some [])) ∨
  (¬token <:+: curVal ∧
    (curVal = [] ∨ (∀ last, (tokensOf delimiter curVal).getLast? = some last →
      Fits delimiter last) ∧ (tokensOf delimiter curVal).head? ≠ some []))

/-- The value after an append. -/
def appended (delimiter token curVal : ConfigText) : ConfigText :=
  if token <:+: curVal then curVal else appendValue delimiter token curVal

/-- The delimiter stands for itself, as a regular expression, in the values that are split: the
value and, for a new token, the value after an append. -/
structure ReadsAsText (split : RegexSplit) (delimiter token curVal : ConfigText) : Prop where
  value : token <:+: curVal → split delimiter curVal = .ok (textPieces delimiter curVal)
  appended : token ∉ tokensOf delimiter curVal →
    split delimiter (appended delimiter token curVal) =
      .ok (textPieces delimiter (appended delimiter token curVal))

section Values

variable {delimiter token curVal : ConfigText}

/-- The value after a deletion, where the delimiter stands for itself. -/
def deleted (delimiter token curVal : ConfigText) : ConfigText :=
  if token <:+: curVal then joinOthers delimiter token (textPieces delimiter curVal) else curVal

theorem tokensOf_of_ne_nil (some : curVal ≠ []) :
    tokensOf delimiter curVal = splitAtText delimiter curVal :=
  if_neg (mt List.isEmpty_iff.mp some)

theorem infix_of_mem_tokensOf (some : delimiter ≠ []) (member : token ∈ tokensOf delimiter curVal) :
    token <:+: curVal := by
  by_cases empty : curVal = []
  · rw [empty] at member
    nomatch member
  · rw [tokensOf_of_ne_nil empty] at member
    exact (splits_splitAtText some curVal).infix_of_mem token member

/-- The tokens behind the first are put behind a delimiter each. -/
theorem foldl_joinOthers (delimiter token : ConfigText) (pieces : List ConfigText) {sb : ConfigText}
    (some : sb ≠ []) :
    pieces.foldl (fun sb v =>
        if v = token then sb else if sb.isEmpty then v else sb ++ (delimiter ++ v)) sb =
      sb ++ Delimited.behindFirst delimiter (pieces.filter (· ≠ token)) := by
  induction pieces generalizing sb with
  | nil => exact (List.append_nil sb).symm
  | cons piece pieces ih =>
      rw [List.foldl_cons]
      by_cases own : piece = token
      · rw [if_pos own, ih some, List.filter_cons_of_neg (by simpa using own)]
      · have more : sb ++ (delimiter ++ piece) ≠ [] := fun empty =>
          some (List.append_eq_nil_iff.mp empty).1
        rw [if_neg own, if_neg (mt List.isEmpty_iff.mp some), ih more,
          List.filter_cons_of_pos (by simpa using own), Delimited.behindFirst_cons,
          List.append_assoc, List.append_assoc]

theorem joinOthers_eq (delimiter token : ConfigText) (pieces : List ConfigText) :
    joinOthers delimiter token pieces =
      delimiter.intercalate ((pieces.filter (· ≠ token)).dropWhile List.isEmpty) := by
  unfold joinOthers
  induction pieces with
  | nil => rfl
  | cons piece pieces ih =>
      rw [List.foldl_cons]
      by_cases own : piece = token
      · rw [if_pos own, ih, List.filter_cons_of_neg (by simpa using own)]
      · rw [if_neg own, if_pos List.isEmpty_nil, List.filter_cons_of_pos (by simpa using own)]
        by_cases empty : piece = []
        · rw [empty, ih, List.dropWhile_cons_of_pos List.isEmpty_nil]
        · rw [foldl_joinOthers delimiter token pieces empty,
            List.dropWhile_cons_of_neg (mt List.isEmpty_iff.mp empty),
            Delimited.intercalate_cons]

/-- What is left behind a deletion splits into the pieces that were put together. -/
theorem tokensOf_intercalate (some : delimiter ≠ []) {pieces kept : List ConfigText}
    (splits : Splits delimiter curVal pieces) (sublist : kept.Sublist pieces)
    (first : kept.head? ≠ Option.some []) :
    tokensOf delimiter (delimiter.intercalate kept) = kept := by
  cases kept with
  | nil => rfl
  | cons piece kept =>
      have full : delimiter.intercalate (piece :: kept) ≠ [] := by
        rw [Delimited.intercalate_cons]
        intro empty
        exact first (congrArg Option.some (List.append_eq_nil_iff.mp empty).1)
      rw [tokensOf_of_ne_nil full]
      exact (splits.sublist sublist (List.cons_ne_nil _ _)).eq_splitAtText some

theorem infix_appended (delimiter token curVal : ConfigText) :
    token <:+: appended delimiter token curVal := by
  unfold appended
  split
  · next present => exact present
  · unfold appendValue
    split
    · exact List.infix_rfl
    · rw [← List.append_assoc]
      exact (List.suffix_append _ _).isInfix

/-- A token that is no part of the value is put behind it. -/
theorem appended_of_foreign (foreign : ¬token <:+: curVal) (full : curVal ≠ []) :
    appended delimiter token curVal = curVal ++ (delimiter ++ token) := by
  unfold appended appendValue
  rw [if_neg foreign, if_neg (mt List.isEmpty_iff.mp full)]

/-- The pieces of a value with a token behind it, where the last one fits. -/
theorem splits_append (some : delimiter ≠ []) (plain : ¬delimiter <:+: token)
    (full : curVal ≠ []) (fits : ∀ last, (tokensOf delimiter curVal).getLast? = Option.some last →
      Fits delimiter last) :
    Splits delimiter (curVal ++ (delimiter ++ token)) (tokensOf delimiter curVal ++ [token]) := by
  have splits := splits_splitAtText some curVal
  rw [← tokensOf_of_ne_nil full] at splits
  obtain ⟨last, ends⟩ := Option.isSome_iff_exists.mp (List.getLast?_isSome.mpr splits.ne_nil)
  have whole := splits.append ends (.cons (fits last ends) (.last plain))
  rwa [List.append_cons, List.dropLast_append_getLast? last ends] at whole

theorem appends_iff (some : delimiter ≠ []) (plain : ¬delimiter <:+: token) :
    Appends delimiter token curVal (appended delimiter token curVal) ↔
      token ∈ tokensOf delimiter curVal ∨ ¬token <:+: curVal ∧
        (curVal = [] ∨ ∀ last, (tokensOf delimiter curVal).getLast? = Option.some last →
          Fits delimiter last) := by
  by_cases present : token <:+: curVal
  · unfold Appends appended
    rw [if_pos present, or_iff_left fun foreign => foreign.1 present]
    exact and_iff_left (List.Sublist.refl _)
  · rw [or_iff_right (mt (infix_of_mem_tokensOf some) present), and_iff_right present]
    by_cases empty : curVal = []
    · refine iff_of_true ?_ (.inl empty)
      have tokens : tokensOf delimiter (appended delimiter token curVal) = [token] := by
        have full : token ≠ [] := fun nothing => present (nothing ▸ List.nil_infix)
        unfold appended appendValue
        rw [if_neg present, empty, if_pos List.isEmpty_nil, tokensOf_of_ne_nil full]
        exact (Splits.last plain).eq_splitAtText some
      refine ⟨tokens ▸ List.mem_singleton_self token, ?_⟩
      rw [empty]
      exact List.nil_sublist _
    · have longer : curVal ++ (delimiter ++ token) ≠ [] := fun nothing =>
        empty (List.append_eq_nil_iff.mp nothing).1
      rw [or_iff_right empty, appended_of_foreign present empty]
      unfold Appends
      constructor
      · rintro ⟨member, sublist⟩ last ends
        by_contra overlaps
        have splits := splits_splitAtText some curVal
        rw [← tokensOf_of_ne_nil empty] at splits
        obtain ⟨first, rest, others, start, shorter, lost⟩ :=
          (splits_splitAtText some (last ++ (delimiter ++ token))).of_not_fits overlaps
        have whole := splits.append ends (splits_splitAtText some (last ++ (delimiter ++ token)))
        rw [tokensOf_of_ne_nil longer, whole.eq_splitAtText some, others] at member sublist
        have joined := List.dropLast_append_getLast? last ends
        have within : last <:+: curVal :=
          splits.infix_of_mem last (List.mem_of_getLast? ends)
        have lastIn : last ∈ rest := by
          rw [← joined, List.dropLast_concat, List.append_sublist_append_left] at sublist
          have listed := List.singleton_sublist.mp sublist
          exact (List.mem_cons.mp listed).resolve_left fun same => shorter same.symm
        obtain before | tail := List.mem_append.mp member
        · exact present (splits.infix_of_mem token (List.mem_of_mem_dropLast before))
        · obtain rfl | tokenIn := List.mem_cons.mp tail
          · exact present (start.isInfix.trans within)
          · exact present (lost lastIn tokenIn ▸ within)
      · intro fits
        rw [tokensOf_of_ne_nil longer, (splits_append some plain empty fits).eq_splitAtText some]
        exact ⟨List.mem_append_right _ (List.mem_singleton_self token),
          List.sublist_append_left _ _⟩

/-- Without the only piece, nothing but empty pieces at the end is missing. -/
theorem textPieces_of_ne_nil (some : delimiter ≠ []) (full : curVal ≠ []) :
    textPieces delimiter curVal = (tokensOf delimiter curVal).rdropWhile List.isEmpty := by
  unfold textPieces
  rw [tokensOf_of_ne_nil full]
  dsimp only
  split
  · next single =>
      obtain ⟨piece, only⟩ := List.length_eq_one_iff.mp single
      have joined := (splits_splitAtText some curVal).intercalate
      rw [only, List.intercalate_singleton] at joined
      rw [only, joined, List.rdropWhile_singleton, if_neg (mt List.isEmpty_iff.mp full)]
  · rfl

/-- No token that is left behind a deletion is empty at the front. -/
theorem head?_dropWhile_ne (pieces : List ConfigText) :
    (pieces.dropWhile List.isEmpty).head? ≠ Option.some [] :=
  dropWhile_isEmpty_eq_self_iff.mp (List.dropWhile_idempotent _ _)

theorem deletes_iff (some : delimiter ≠ []) :
    Deletes delimiter token curVal (deleted delimiter token curVal) ↔
      ¬token <:+: curVal ∨ token = [] ∨ (tokensOf delimiter curVal).getLast? ≠ Option.some [] ∧
        ((tokensOf delimiter curVal).filter (· ≠ token)).head? ≠ Option.some [] := by
  unfold Deletes deleted
  by_cases present : token <:+: curVal
  · rw [if_pos present, or_iff_right (not_not_intro present), joinOthers_eq]
    by_cases empty : curVal = []
    · have nothing : token = [] := List.eq_nil_of_infix_nil (empty ▸ present)
      refine iff_of_true ?_ (.inl nothing)
      rw [empty, nothing]
      exact ⟨List.not_mem_nil, List.nil_sublist _⟩
    · have splits := splits_splitAtText some curVal
      rw [← tokensOf_of_ne_nil empty] at splits
      have left : (((tokensOf delimiter curVal).rdropWhile List.isEmpty).filter
          (· ≠ token)).dropWhile List.isEmpty |>.Sublist
            ((tokensOf delimiter curVal).filter (· ≠ token)) :=
        (List.dropWhile_sublist _).trans ((List.rdropWhile_prefix _ _).sublist.filter _)
      rw [textPieces_of_ne_nil some empty, ← dropWhile_filter_rdropWhile_eq_iff,
        tokensOf_intercalate some splits (left.trans List.filter_sublist) (head?_dropWhile_ne _)]
      constructor
      · rintro ⟨_, others⟩
        exact left.antisymm others
      · intro same
        rw [same]
        exact ⟨fun member => absurd (List.mem_filter.mp member).2 (by simp), List.Sublist.refl _⟩
  · rw [if_neg present]
    refine iff_of_true ⟨mt (infix_of_mem_tokensOf some) present, ?_⟩ (.inl present)
    exact List.filter_sublist

theorem deleted_appended_iff (some : delimiter ≠ []) (plain : ¬delimiter <:+: token)
    (foreign : ¬token <:+: curVal) (full : curVal ≠ [])
    (fits : ∀ last, (tokensOf delimiter curVal).getLast? = Option.some last →
      Fits delimiter last) :
    deleted delimiter token (appended delimiter token curVal) = curVal ↔
      (tokensOf delimiter curVal).head? ≠ Option.some [] := by
  have longer : curVal ++ (delimiter ++ token) ≠ [] := fun nothing =>
    full (List.append_eq_nil_iff.mp nothing).1
  have nonempty : ¬token.isEmpty = true := fun nothing =>
    foreign (List.isEmpty_iff.mp nothing ▸ List.nil_infix)
  have splits := splits_splitAtText some curVal
  rw [← tokensOf_of_ne_nil full] at splits
  have others : (tokensOf delimiter curVal).filter (· ≠ token) = tokensOf delimiter curVal := by
    refine List.filter_eq_self.mpr fun piece member => decide_eq_true fun same => ?_
    exact foreign (infix_of_mem_tokensOf some (same ▸ member))
  have performed : deleted delimiter token (appended delimiter token curVal) =
      delimiter.intercalate ((tokensOf delimiter curVal).dropWhile List.isEmpty) := by
    unfold deleted
    rw [if_pos (infix_appended delimiter token curVal), appended_of_foreign foreign full,
      textPieces_of_ne_nil some longer, tokensOf_of_ne_nil longer,
      (splits_append some plain full fits).eq_splitAtText some,
      List.rdropWhile_concat_neg _ _ _ nonempty, joinOthers_eq, List.filter_append, others,
      List.filter_cons_of_neg (by simp), List.filter_nil, List.append_nil]
  rw [performed, ← dropWhile_isEmpty_eq_self_iff]
  constructor
  · intro same
    have tokens := tokensOf_intercalate some splits (List.dropWhile_sublist List.isEmpty)
      (head?_dropWhile_ne (tokensOf delimiter curVal))
    rw [same] at tokens
    exact tokens.symm
  · intro first
    rw [first, splits.intercalate]

/-- A token that is put into an empty value is the only one. -/
theorem deleted_appended_nil (some : delimiter ≠ []) (plain : ¬delimiter <:+: token)
    (full : token ≠ []) : deleted delimiter token (appended delimiter token []) = [] := by
  have alone : appended delimiter token [] = token := by
    unfold appended appendValue
    rw [if_neg (mt List.eq_nil_of_infix_nil full), if_pos List.isEmpty_nil]
  unfold deleted
  rw [alone, if_pos List.infix_rfl, textPieces_of_ne_nil some full, tokensOf_of_ne_nil full,
    (Splits.last plain).eq_splitAtText some, List.rdropWhile_singleton,
    if_neg (mt List.isEmpty_iff.mp full), joinOthers_eq, List.filter_cons_of_neg (by simp)]
  rfl

/-- **The edits of a value** are exact for the regular ones. -/
theorem regular_iff (some : delimiter ≠ []) (plain : ¬delimiter <:+: token) :
    (Appends delimiter token curVal (appended delimiter token curVal) ∧
        Deletes delimiter token curVal (deleted delimiter token curVal) ∧
        (token ∉ tokensOf delimiter curVal →
          deleted delimiter token (appended delimiter token curVal) = curVal)) ↔
      Regular delimiter token curVal := by
  rw [appends_iff some plain, deletes_iff some]
  unfold Regular
  by_cases member : token ∈ tokensOf delimiter curVal
  · have present := infix_of_mem_tokensOf some member
    constructor
    · rintro ⟨_, deletes, _⟩
      exact .inl ⟨member, deletes.resolve_left (not_not_intro present)⟩
    · rintro (⟨_, ends⟩ | ⟨foreign, _⟩)
      · exact ⟨.inl member, .inr ends, fun foreign => absurd member foreign⟩
      · exact absurd present foreign
  · constructor
    · rintro ⟨appends, _, undo⟩
      obtain ⟨foreign, fits⟩ := appends.resolve_left member
      refine .inr ⟨foreign, ?_⟩
      by_cases empty : curVal = []
      · exact .inl empty
      · have fits := fits.resolve_left empty
        exact .inr ⟨fits, (deleted_appended_iff some plain foreign empty fits).mp (undo member)⟩
    · rintro (⟨here, _⟩ | ⟨foreign, ends⟩)
      · exact absurd here member
      · refine ⟨.inr ⟨foreign, ends.imp_right And.left⟩, .inl foreign, fun _ => ?_⟩
        by_cases empty : curVal = []
        · have full : token ≠ [] := fun nothing => foreign (nothing ▸ List.nil_infix)
          rw [empty]
          exact deleted_appended_nil some plain full
        · obtain ⟨fits, first⟩ := ends.resolve_left empty
          exact (deleted_appended_iff some plain foreign empty fits).mpr first

end Values

section Document

variable {split : RegexSplit} {changer : XmlConfigChanger} {command : ConfigCommand}
  {curVal : ConfigText}

/-- A value that contains the token is left alone. -/
theorem append_of_infix (value : changer.getProperty command.propName = .ok (some curVal))
    (present : command.propValue <:+: curVal) : changer.append command = .ok changer :=
  Outcome.bind_eq_ok.mpr ⟨some curVal, value, if_pos present⟩

/-- An append leaves the value with the token. -/
theorem exists_append (value : changer.getProperty command.propName = .ok (some curVal)) :
    ∃ after, changer.append command = .ok after ∧ after.getProperty command.propName =
      .ok (some (appended command.appendDelimitor command.propValue curVal)) := by
  unfold appended
  by_cases present : command.propValue <:+: curVal
  · rw [if_pos present]
    exact ⟨changer, append_of_infix value present, value⟩
  · rw [if_neg present]
    obtain ⟨after, written, read⟩ := modProperty_of_some value
      (appendValue command.appendDelimitor command.propValue curVal) command.createIfNotExists
    refine ⟨after, Outcome.bind_eq_ok.mpr ⟨some curVal, value, ?_⟩, read⟩
    exact (if_neg present).trans written

theorem exists_delval (reads : command.propValue <:+: curVal →
      split command.appendDelimitor curVal = .ok (textPieces command.appendDelimitor curVal))
    (value : changer.getProperty command.propName = .ok (some curVal)) :
    ∃ after, changer.delval split command = .ok after ∧ after.getProperty command.propName =
      .ok (some (deleted command.appendDelimitor command.propValue curVal)) := by
  unfold deleted
  by_cases present : command.propValue <:+: curVal
  · rw [if_pos present]
    obtain ⟨after, written, read⟩ := modProperty_of_some value
      (joinOthers command.appendDelimitor command.propValue
        (textPieces command.appendDelimitor curVal)) command.createIfNotExists
    refine ⟨after, Outcome.bind_eq_ok.mpr ⟨some curVal, value, ?_⟩, read⟩
    refine (if_pos present).trans (Outcome.bind_eq_ok.mpr ⟨_, reads present, written⟩)
  · rw [if_neg present]
    exact ⟨changer, Outcome.bind_eq_ok.mpr ⟨some curVal, value, if_neg present⟩, value⟩

/-- **Exact edits of configuration files.** Where the delimiter stands for itself, the edits of
a list are exact on the regular values, and on no others. -/
theorem editsExactly_iff
    (reads : ReadsAsText split command.appendDelimitor command.propValue curVal)
    (delimits : command.appendDelimitor ≠ [])
    (plain : ¬command.appendDelimitor <:+: command.propValue)
    (value : changer.getProperty command.propName = .ok (some curVal)) :
    EditsExactly split changer command curVal ↔
      Regular command.appendDelimitor command.propValue curVal := by
  obtain ⟨after, appended_, read⟩ := exists_append value
  obtain ⟨removed, deleted_, left⟩ := exists_delval reads.value value
  have undoes : command.propValue ∉ tokensOf command.appendDelimitor curVal →
      ∃ back, after.delval split command = .ok back ∧ back.getProperty command.propName =
        .ok (some (deleted command.appendDelimitor command.propValue
          (appended command.appendDelimitor command.propValue curVal))) :=
    fun foreign => exists_delval (fun _ => reads.appended foreign) read
  rw [← regular_iff delimits plain]
  constructor
  · rintro ⟨⟨_, newVal, performed, newRead, appends, _⟩, ⟨_, rest, performed', restRead, deletes⟩,
      undo⟩
    cases appended_.symm.trans performed
    cases deleted_.symm.trans performed'
    cases read.symm.trans newRead
    cases left.symm.trans restRead
    refine ⟨appends, deletes, fun foreign => ?_⟩
    obtain ⟨back, undone, restored⟩ := undoes foreign
    obtain ⟨_, _, performed, undone', same⟩ := undo foreign
    cases appended_.symm.trans performed
    cases undone.symm.trans undone'
    exact Option.some.inj (Except.ok.inj (restored.symm.trans same))
  · rintro ⟨appends, deletes, undo⟩
    refine ⟨⟨after, _, appended_, read, appends, append_of_infix read (infix_appended _ _ _)⟩,
      ⟨removed, _, deleted_, left, deletes⟩, fun foreign => ?_⟩
    obtain ⟨back, undone, restored⟩ := undoes foreign
    exact ⟨after, back, appended_, undone, restored.trans (by rw [undo foreign])⟩

end Document

section Example

/-- A document with one property. -/
def propertyWith (curVal : String) : XmlConfigChanger :=
  ⟨[createNewElement "classes".toList curVal.toList]⟩

/-- A command on its value, with commas between the tokens. -/
def tokenCommand (actionType : ActionType) (token : String) : ConfigCommand where
  propName := "classes".toList
  propValue := token.toList
  actionType := actionType
  appendDelimitor := [',']

/-- A token is put behind the others and taken away again. -/
theorem last_token_edited :
    EditsExactly (fun delimiter text => .ok (textPieces delimiter text)) (propertyWith "a,b")
      (tokenCommand .append "c") "a,b".toList := by
  have reads : ReadsAsText (fun delimiter text => .ok (textPieces delimiter text)) [',']
      "c".toList "a,b".toList := ⟨fun _ => rfl, fun _ => rfl⟩
  refine (editsExactly_iff reads (by decide) (by decide) rfl).mpr (.inr ⟨by decide, ?_⟩)
  refine .inr ⟨fun last ends => ?_, by decide⟩
  cases ends
  unfold Fits
  decide

/-- **A class that is not installed.** Its name is part of another one's. -/
theorem part_of_token_not_appended :
    ¬EditsExactly (fun delimiter text => .ok (textPieces delimiter text))
      (propertyWith "org.Authorizer2") (tokenCommand .append "org.Authorizer")
      "org.Authorizer2".toList := by
  rintro ⟨⟨after, newVal, performed, read, ⟨member, _⟩, _⟩, _, _⟩
  have unchanged : (propertyWith "org.Authorizer2").append
      (tokenCommand .append "org.Authorizer") = .ok (propertyWith "org.Authorizer2") :=
    append_of_infix rfl (by decide)
  cases unchanged.symm.trans performed
  cases read
  revert member
  decide

end Example

end XmlConfigChanger

end Ranger
