import Stencil.Text.Basic

/-!
Tags and the two kinds of block.  A tag is what stands between the opening and the closing mark; its
trimmed content refers to a value, opens a block or closes one.  A block kind is known by its word, from
which its directive, the mark that counts as an opening and the mark that closes it are spelled.
-/

set_option autoImplicit false
set_option relaxedAutoImplicit false

namespace Stencil

/-- The two kinds of block: a condition is rendered or not, an iteration once per element. -/
inductive BlockKind
  | condition
  | iteration
deriving DecidableEq, Repr

namespace Tag

def opener : Text := ['{', '{']

def closer : Text := ['}', '}']

end Tag

namespace BlockKind

def word : BlockKind → Text
  | condition => "if".toList
  | iteration => "each".toList

def ofWord? (word : Text) : Option BlockKind :=
  [condition, iteration].find? fun kind => kind.word = word

/-- How the trimmed content of a tag that opens such a block begins. -/
def directive (kind : BlockKind) : Text :=
  '#' :: kind.word ++ [' ']

/-- The source text that counts as the opening of such a block, whatever follows it. -/
def opener (kind : BlockKind) : Text :=
  Tag.opener ++ '#' :: kind.word

def closer (kind : BlockKind) : Text :=
  Tag.opener ++ '/' :: kind.word ++ Tag.closer

end BlockKind

inductive Tag
  /-- A value is put in its place. -/
  | reference
  /-- A block begins. -/
  | opening (kind : BlockKind)
  /-- A block ends. -/
  | closing (kind : BlockKind)
deriving DecidableEq, Repr

namespace Tag

/-- What the tag with a given content does.  A leading slash alone makes it a closing tag, which ends
a condition unless it names an iteration. -/
def ofContent (content : Text) : Tag :=
  if BlockKind.condition.directive.isPrefixOf content then opening .condition
  else if BlockKind.iteration.directive.isPrefixOf content then opening .iteration
  else if ['/'].isPrefixOf content then
    closing (if ('/' :: BlockKind.iteration.word).isPrefixOf content then .iteration else .condition)
  else reference

end Tag

end Stencil
