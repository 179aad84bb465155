import GoProtocols.Go.Bytes

/-!
# Package `net`: host and port

`SplitHostPort` and `JoinHostPort`. The callers in the repository drop the error of
`SplitHostPort`, so it gives empty strings here, as it returns then.
-/

namespace Go

/-- `net.JoinHostPort`. -/
def joinHostPort (host port : Bytes) : Bytes :=
  if host.contains 58 then lit "[" ++ host ++ lit "]:" ++ port else host ++ lit ":" ++ port

/-- `net.SplitHostPort`. -/
def splitHostPort (hostport : Bytes) : Bytes × Bytes :=
  match lastIndexByte hostport 58 with
  | none => ([], [])
  | some i =>
    let port := hostport.drop (i + 1)
    if hasPrefix hostport (lit "[") then
      match hostport.idxOf? 93 with
      | none => ([], [])
      | some close =>
        -- the first `]` stands right before the last colon, and no other bracket does anywhere
        if close + 1 = i ∧ 91 ∉ hostport.drop 1 ∧ 93 ∉ hostport.drop (close + 1) then
          ((hostport.take close).drop 1, port)
        else ([], [])
    else if 58 ∈ hostport.take i ∨ 91 ∈ hostport ∨ 93 ∈ hostport then ([], [])
    else (hostport.take i, port)

example : splitHostPort (lit "[::]:2121") = (lit "::", lit "2121") := by decide

end Go
