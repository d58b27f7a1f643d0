import OrderedEnv.Yaml.Token.Folding

/-!
# Plain scalars

A plain scalar is text without quotes. It ends before `: `, before a comment, before a line that is
indented no deeper than its collection, and in a flow collection before a comma or bracket.
-/

namespace OrderedEnv.Yaml.Plain

/-- Takes the characters up to the next white space or the end of the scalar. They are put before
`done`, last one first, and counted. -/
def word (inFlow : Bool) (done : List Char) (count : Nat) :
    List Char → Except ReadError (List Char × Nat)
  | [] => .ok (done, count)
  | c :: rest =>
    if isBlankOrBreak c then .ok (done, count)
    else if c = ':' && endsWord rest.head? then .ok (done, count)
    else if inFlow && c = ':' && rest.head?.any (fun d => isFlowIndicator d || d = '?') then
      .error .misplacedColon
    else if inFlow && isFlowIndicator c then .ok (done, count)
    else word inFlow (c :: done) (count + 1) rest

/-- Takes words and the gaps between them. `indent` is the least column of a line of the scalar, and
`fuel` bounds the number of characters. -/
def words (inFlow : Bool) (indent : Nat) :
    Nat → Cursor → List Char → Gap → Except ReadError (List Char × Gap × Cursor)
  | 0, c, done, gap => .ok (done, gap, c)
  | fuel + 1, c, done, gap =>
    if c.isDocumentMarker || c.next = some '#' then .ok (done, gap, c)
    else do
      let (found, count) ← word inFlow [] 0 c.rest
      if count = 0 then return (done, gap, c)
      let done := found ++ gap.fold.reverse ++ done
      let c := c.advance count
      let (gap, behind) ← Gap.take indent fuel c .none
      if endsWord c.next && c.next.isSome && (inFlow || indent ≤ behind.column) then
        words inFlow indent fuel behind done gap
      else return (done, gap, behind)

/-- Takes a plain scalar. Tells also whether a line was broken behind its last word. -/
def take (inFlow : Bool) (indent : Nat) (c : Cursor) :
    Except ReadError (String × Bool × Cursor) := do
  let (done, gap, c) ← words inFlow indent c.rest.length c [] .none
  return (String.ofList done.reverse, gap.hasBreak, c)

end OrderedEnv.Yaml.Plain
