import BalancerSync.Program

namespace BalancerSync.Engine

open Program

def fetchListed : List Listed → Program (List Resource)
  | [] => done []
  | entry :: rest =>
    match Kind.ofTypeIdentifier? entry.typeIdentifier with
    | none => fetchListed rest
    | some kind => do
      match ← request (.watch (.get kind entry.identifier)) with
      | none => fail .canceled
      | some (.error .notFound) => fetchListed rest
      | some (.error refusal) => fail (.provider refusal)
      | some (.ok resource) => return resource :: (← fetchListed rest)

/-- Everything that carries a tag. Objects of unknown type are left out, and so are objects that are
gone when their turn comes. -/
def fetch (tag : Tag) : Program Snapshot := do
  checkpoint
  match ← request (.watch (.list tag)) with
  | none => fail .canceled
  | some (.error (.unprocessable _)) => return .empty
  | some (.error refusal) => fail (.provider refusal)
  | some (.ok listed) => return .ofList (← fetchListed listed)

end BalancerSync.Engine
