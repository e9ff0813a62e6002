/-!
# Keywords

The reserved words of the language.  A word is a keyword by its spelling alone; words that mean
something only in certain places (`init`, `overflow`, `from`, …) are ordinary names.
-/

namespace ActorFrontend

/-- The reserved words. -/
inductive Keyword where
  | fnKw
  | letKw
  | varKw
  | constKw
  | structKw
  | enumKw
  | typeKw
  | traitKw
  | implKw
  | forKw
  | inKw
  | whileKw
  | loopKw
  | breakKw
  | continueKw
  | returnKw
  | ifKw
  | elseKw
  | matchKw
  | importKw
  | pubKw
  | wireKw
  | actorKw
  | supervisorKw
  | externKw
  | spawnKw
  | selectKw
  | raceKw
  | joinKw
  | scopeKw
  | unsafeKw
  | yieldKw
  | awaitKw
  | genKw
  | asyncKw
  | tryKw
  | catchKw
  | whereKw
  | dynKw
  | moveKw
  | cooperateKw
  | andKw
  | orKw
  | selfKw
  | noneKw
  | mailboxKw
  deriving DecidableEq, Repr

namespace Keyword

/-- Every keyword, in the order of the language's table. -/
def all : List Keyword :=
  [.fnKw, .letKw, .varKw, .constKw, .structKw, .enumKw, .typeKw, .traitKw, .implKw, .forKw,
   .inKw, .whileKw, .loopKw, .breakKw, .continueKw, .returnKw, .ifKw, .elseKw, .matchKw,
   .importKw, .pubKw, .wireKw, .actorKw, .supervisorKw, .externKw, .spawnKw, .selectKw, .raceKw,
   .joinKw, .scopeKw, .unsafeKw, .yieldKw, .awaitKw, .genKw, .asyncKw, .tryKw, .catchKw,
   .whereKw, .dynKw, .moveKw, .cooperateKw, .andKw, .orKw, .selfKw, .noneKw, .mailboxKw]

/-- How the keyword is spelled. -/
def text : Keyword → String
  | .fnKw => "fn"
  | .letKw => "let"
  | .varKw => "var"
  | .constKw => "const"
  | .structKw => "struct"
  | .enumKw => "enum"
  | .typeKw => "type"
  | .traitKw => "trait"
  | .implKw => "impl"
  | .forKw => "for"
  | .inKw => "in"
  | .whileKw => "while"
  | .loopKw => "loop"
  | .breakKw => "break"
  | .continueKw => "continue"
  | .returnKw => "return"
  | .ifKw => "if"
  | .elseKw => "else"
  | .matchKw => "match"
  | .importKw => "import"
  | .pubKw => "pub"
  | .wireKw => "wire"
  | .actorKw => "actor"
  | .supervisorKw => "supervisor"
  | .externKw => "extern"
  | .spawnKw => "spawn"
  | .selectKw => "select"
  | .raceKw => "race"
  | .joinKw => "join"
  | .scopeKw => "scope"
  | .unsafeKw => "unsafe"
  | .yieldKw => "yield"
  | .awaitKw => "await"
  | .genKw => "gen"
  | .asyncKw => "async"
  | .tryKw => "try"
  | .catchKw => "catch"
  | .whereKw => "where"
  | .dynKw => "dyn"
  | .moveKw => "move"
  | .cooperateKw => "cooperate"
  | .andKw => "and"
  | .orKw => "or"
  | .selfKw => "self"
  | .noneKw => "None"
  | .mailboxKw => "mailbox"

/-- The keyword that a word spells. -/
def ofText? (word : String) : Option Keyword := all.find? (·.text == word)

/-- How messages name the keyword. -/
def displayName (k : Keyword) : String := "'" ++ k.text ++ "'"

/-- Keywords that begin a declaration at the top level. -/
def startsItem : Keyword → Bool
  | .importKw | .constKw | .typeKw | .structKw | .enumKw | .wireKw | .traitKw | .implKw | .fnKw
  | .genKw | .asyncKw | .externKw | .actorKw | .supervisorKw | .pubKw => true
  | _ => false

/-- Keywords that begin a statement inside a block. -/
def startsStatement : Keyword → Bool
  | .letKw | .varKw | .forKw | .whileKw | .loopKw | .breakKw | .continueKw | .returnKw | .ifKw
  | .matchKw => true
  | _ => false

/-- Keywords that begin a member of a declaration's body. -/
def startsMember : Keyword → Bool
  | .fnKw | .genKw | .asyncKw | .letKw | .varKw | .typeKw | .mailboxKw => true
  | _ => false

end Keyword

end ActorFrontend
