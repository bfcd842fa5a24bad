/-
References to variables: `$(NAME)` and `${NAME}`.
-/
import BmakeHighlight.Scan

namespace BmakeHighlight

/-- A bracket that can open a reference behind its dollar sign. -/
def isOpener (c : Char) : Bool :=
  c == '(' || c == '{'

/-- A bracket that closes a reference.  Either kind closes either kind of opener. -/
def isCloser (c : Char) : Bool :=
  c == ')' || c == '}'

/-- A reference that begins here: its opener, its value when there is one, and the first
closer after the opener. -/
def referenceHere : Matcher := fun _ t =>
  match t with
  | '$' :: opener :: rest =>
      if isOpener opener then
        match rest.dropWhile (!isCloser ·) with
        | closer :: _ =>
            let value := match rest.takeWhile (!isCloser ·) with
              | [] => []
              | name => [⟨.referenceValue, name⟩]
            some (⟨.referenceDelimiter, ['$', opener]⟩ ::
              (value ++ [⟨.referenceDelimiter, [closer]⟩]))
        | [] => none
      else none
  | _ => none

end BmakeHighlight
