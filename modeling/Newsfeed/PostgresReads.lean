import Newsfeed.PostgresEtag
import Newsfeed.ServerReads

/-! # PostgreSQL: reads with a validator among other requests

Each write of a run carries a later date than those before it. The two queries of a `GET`
may see different tables, with the writes of others in between; a `304` hides no write.
-/
namespace PostgresReads

open TextOperations RelationalTables FeedModels HttpHeaders CudHandlers EtagCache Services
open FeedService Router ServerRuns PostgresProcedures PostgresExtract PostgresEtag

abbrev database (sv : Server) : Database where
  Table := Newsfeed sv
  engine := fun call => postgres sv call.now
  read := store

variable {sv : Server} {isRfc3339 : Text → Bool}

section Tables

variable {first : (database sv).Table} {executed : List Execution}

variable {xxh64 : Text → UInt64} {rawParams : Text → Option Text}

end Tables

section Runs

variable {K : Type*} [Field K] [LinearOrder K]

variable [FloorSemiring K]

end Runs

def newsApp : App ℚ where
  limit := ⟨10, 1, Nat.succ_pos 9, one_pos⟩
  extractor := ⟨false, []⟩
  apiKeys := [ApiKeys.sampleDigest]
  sha256 := fun _ => ApiKeys.sampleDigest

def newsPage (t : Newsfeed sampleServer) : Text := bodyText (t.rows.map (selectRow sampleServer))

def newestText : Text := etagInput "2026-08-01 12:00:00".toList (.fromMap noParams)

def newsXxh64 (t : Text) : UInt64 :=
  if t = newestText then 0xa1c7db755ee70891
  else if t = newsPage twoRows then 0xfcb995bd1f65838f
  else if t = newsPage newRowOnly then 0x408133d6489a596e
  else 0

end PostgresReads
