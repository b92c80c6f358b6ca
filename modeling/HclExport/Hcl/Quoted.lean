import HclExport.Json.Printer

/-!
# Quoted literals

A text as a quoted literal: the escapes of JSON, and a doubled sign before every brace
that would otherwise open a template.

## Main definitions

* `opensTemplate` — a `$` or `%` that stands before an opening brace.
* `escape`, `quote` — the body of a literal, and the literal.
* `quoteValue` — a value of any kind as a literal on one line.
-/

namespace HclExport
namespace Hcl

/-- Whether a character and the text after it open a template. -/
def opensTemplate (c : Char) (rest : List Char) : Bool :=
  (c == '$' || c == '%') && rest.head? == some '\x7b'

/-- The body of a quoted literal. -/
def escape : List Char → List Char
  | [] => []
  | c :: rest => (if opensTemplate c rest then [c, c] else escapeChar c) ++ escape rest

@[simp] theorem escape_nil : escape [] = [] := rfl

@[simp] theorem escape_cons (c : Char) (rest : List Char) :
    escape (c :: rest) =
      (if opensTemplate c rest then [c, c] else escapeChar c) ++ escape rest := rfl

/-- A text as a quoted literal. -/
def quote (s : String) : String :=
  String.ofList ('"' :: escape s.toList ++ ['"'])

@[simp] theorem toList_quote (s : String) : (quote s).toList = '"' :: escape s.toList ++ ['"'] := by
  simp [quote]

/-- A value as a literal: JSON text in which no template opens. -/
def quoteValue (value : Json) : String :=
  value.textBy quote

@[simp] theorem quoteValue_str (s : String) : quoteValue (.str s) = quote s := by
  simp [quoteValue]

end Hcl
end HclExport
