import BytecodeParity.Pattern.CharSet
import BytecodeParity.Text.Basic

/-!
Sets of characters by name: the general categories and their groups, a few properties, and the
bracketed class names of ASCII characters. Letter case, blanks, hyphens and underscores in a
property name do not count, nor does a leading `is`.
-/

set_option autoImplicit false

namespace BytecodeParity

namespace CharSet

def ofCategories (categories : List Text.Category) : CharSet :=
  unions (categories.map .category)

def anyOf (members : String) : CharSet :=
  unions (members.toList.map single)

def asciiDigit : CharSet := .range '0' '9'

def asciiLetter : CharSet := .union (.range 'A' 'Z') (.range 'a' 'z')

def asciiWord : CharSet := unions [asciiLetter, asciiDigit, single '_']

def asciiBlank : CharSet := .union (.range '\t' '\r') (single ' ')

def asciiPunctuation : CharSet :=
  unions [.range '!' '/', .range ':' '@', .range '[' '\x60', .range '{' '~']

def categoryNames : List (List String × List Text.Category) :=
  [(["l", "letter"], [.Lu, .Ll, .Lt, .Lm, .Lo]), (["lc", "casedletter"], [.Lu, .Ll, .Lt]),
    (["lu", "uppercaseletter"], [.Lu]), (["ll", "lowercaseletter"], [.Ll]), (["lt", "titlecaseletter"], [.Lt]),
    (["lm", "modifierletter"], [.Lm]), (["lo", "otherletter"], [.Lo]),
    (["m", "mark", "combiningmark"], [.Mn, .Mc, .Me]), (["mn", "nonspacingmark"], [.Mn]),
    (["mc", "spacingmark"], [.Mc]), (["me", "enclosingmark"], [.Me]),
    (["n", "number"], [.Nd, .Nl, .No]), (["nd", "decimalnumber", "digit"], [.Nd]), (["nl", "letternumber"], [.Nl]),
    (["no", "othernumber"], [.No]),
    (["p", "punctuation", "punct"], [.Pc, .Pd, .Ps, .Pe, .Pi, .Pf, .Po]), (["pc", "connectorpunctuation"], [.Pc]),
    (["pd", "dashpunctuation"], [.Pd]), (["ps", "openpunctuation"], [.Ps]), (["pe", "closepunctuation"], [.Pe]),
    (["pi", "initialpunctuation"], [.Pi]), (["pf", "finalpunctuation"], [.Pf]), (["po", "otherpunctuation"], [.Po]),
    (["s", "symbol"], [.Sm, .Sc, .Sk, .So]), (["sm", "mathsymbol"], [.Sm]), (["sc", "currencysymbol"], [.Sc]),
    (["sk", "modifiersymbol"], [.Sk]), (["so", "othersymbol"], [.So]),
    (["z", "separator"], [.Zs, .Zl, .Zp]), (["zs", "spaceseparator"], [.Zs]), (["zl", "lineseparator"], [.Zl]),
    (["zp", "paragraphseparator"], [.Zp]),
    (["c", "other"], [.Cc, .Cf, .Cs, .Co, .Cn]), (["cc", "control", "cntrl"], [.Cc]), (["cf", "format"], [.Cf]),
    (["co", "privateuse"], [.Co]), (["cn", "unassigned"], [.Cn])]

def plainName (name : List Char) : String :=
  let plain := (name.filter fun c => c.toNat < 0x80 && c ≠ ' ' && c ≠ '_' && c ≠ '-').map Char.toLower
  match plain with
  | 'i' :: 's' :: rest => if rest = ['c'] then "isc" else String.ofList rest
  | plain => String.ofList plain

def ofCategoryName? (name : String) : Option CharSet :=
  if name = "any" then some .everything
  else if name = "ascii" then some (.range '\x00' '\x7f')
  else if name = "assigned" then some (.complement (.category .Cn))
  else (categoryNames.find? fun row => row.1.contains name).map fun row => ofCategories row.2

def ofPropertyName? (name : String) : Option CharSet :=
  if ["whitespace", "wspace", "space"].contains name then some .blank
  else ofCategoryName? name

def ofProperty? (name : List Char) : Option CharSet :=
  let valueOf (property value : List Char) : Option CharSet :=
    if ["gc", "generalcategory"].contains (plainName property) then ofCategoryName? (plainName value) else none
  match Text.cutAt ['!', '='] name with
  | some (property, value) => (valueOf property value).map .complement
  | none =>
      match Text.cutAt [':'] name with
      | some (property, value) => valueOf property value
      | none =>
          match Text.cutAt ['='] name with
          | some (property, value) => valueOf property value
          | none => ofPropertyName? (plainName name)

def ofClassName? (name : String) : Option CharSet :=
  match name with
  | "alnum" => some (.union asciiLetter asciiDigit)
  | "alpha" => some asciiLetter
  | "ascii" => some (.range '\x00' '\x7f')
  | "blank" => some (anyOf "\t ")
  | "cntrl" => some (.union (.range '\x00' '\x1f') (single '\x7f'))
  | "digit" => some asciiDigit
  | "graph" => some (.range '!' '~')
  | "lower" => some (.range 'a' 'z')
  | "print" => some (.range ' ' '~')
  | "punct" => some asciiPunctuation
  | "space" => some asciiBlank
  | "upper" => some (.range 'A' 'Z')
  | "word" => some asciiWord
  | "xdigit" => some (unions [asciiDigit, .range 'A' 'F', .range 'a' 'f'])
  | _ => none

end CharSet

end BytecodeParity
