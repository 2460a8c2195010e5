/-
Line endings. A carriage return, alone or before a line feed, ends a line like a line feed does. Each ending is written as
one line feed, so that line numbers mean the same whatever machine a source was written on.

This takes two passes over the text: the first writes the pairs, and the second the carriage returns that are left. A text
without any stays what it is (`rewriteNewlines?`).
-/

namespace Graft.Source

/-- passes over so many characters, and from there on replaces each occurrence of a word, from the left and without overlap;
a word is its first character and those after it -/
def replaceFrom (first : Char) (others new : List Char) : Nat → List Char → List Char
  | _, [] => []
  | skip + 1, _ :: cs => replaceFrom first others new skip cs
  | 0, c :: cs =>
    if c = first ∧ others.isPrefixOf cs then new ++ replaceFrom first others new others.length cs
    else c :: replaceFrom first others new 0 cs

/-- replaces each occurrence of a word, from the left and without overlap -/
def replaceAll (first : Char) (others new cs : List Char) : List Char := replaceFrom first others new 0 cs

/-- the text with every line ending written as one line feed; none when there is nothing to rewrite -/
def rewriteNewlines? (source : String) : Option String :=
  if source.toList.contains '\r' then
    some (String.ofList (replaceAll '\r' [] ['\n'] (replaceAll '\r' ['\n'] ['\n'] source.toList)))
  else none

/-- the text with every line ending written as one line feed -/
def normalizeNewlines (source : String) : String := (rewriteNewlines? source).getD source

/-- whether a text is left as it is -/
def hasOnlyLineFeeds (source : String) : Bool := (rewriteNewlines? source).isNone

end Graft.Source
