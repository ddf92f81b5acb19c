import ServiceBroker.Store.Basic
import ServiceBroker.Store.RecordName

/-!
The store that keeps each record in an object of a bucket, and the bucket as its clients see it.

A bucket holds objects under keys. It lists the keys that begin with a prefix page by page, in the
order of their encodings, and every page but the last carries a token for the next one. Any request
may be refused with a status and a code.
-/

namespace ServiceBroker

/-- A request to a bucket is refused. -/
structure Refusal where
  status : Nat
  /-- What the body of the answer says, if it has one. -/
  code : Option String
deriving DecidableEq

namespace Bucket

/-- What is asked of a bucket. -/
inductive Method where
  | get
  | put
  | head
  | delete
  | list
deriving DecidableEq

def Method.name : Method → String
  | get => "get"
  | put => "put"
  | head => "head"
  | delete => "delete"
  | list => "list"

def Method.ofName? (name : String) : Option Method :=
  [get, put, head, delete, list].find? (·.name == name)

end Bucket

/-- A bucket. -/
structure Bucket where
  name : String
  objects : Fields Bytes := []
  /-- How many keys a page has that begins behind so many keys. At least one is listed. -/
  pageSize : Nat → Nat := fun _ => 1000
  /-- Refusals that are due, each of the next request by its method. -/
  refusals : List (Bucket.Method × Refusal) := []
  /-- Every request so far. -/
  log : List String := []

namespace Bucket

/-- The part of a listing that one answer has, and the token for the next part. -/
structure Page where
  keys : List String
  next : Option Nat

/-- There is no object under the key. -/
def noSuchKey : Refusal := { status := 404, code := some "NoSuchKey" }

/-- Logs a request and answers it, unless it is to be refused. -/
def request {α : Type} (method : Method) (about : String)
    (answer : Bucket → Except Refusal α × Bucket) (bucket : Bucket) : Except Refusal α × Bucket :=
  let bucket := { bucket with
    log := bucket.log ++ [method.name ++ " " ++ bucket.name ++ " " ++ about] }
  match bucket.refusals.find? (·.1 == method) with
  | some (_, refusal) =>
    (throw refusal, { bucket with
      refusals := bucket.refusals.eraseP (·.1 == method) })
  | none => answer bucket

/-- The object under a key. -/
def get (key : String) : Bucket → Except Refusal Bytes × Bucket :=
  request .get key fun bucket =>
    match bucket.objects.get? key with
    | some content => (pure content, bucket)
    | none => (throw noSuchKey, bucket)

/-- Puts an object under a key. -/
def put (key : String) (content : Bytes) : Bucket → Except Refusal Unit × Bucket :=
  request .put key fun bucket =>
    (pure (), { bucket with objects := bucket.objects.put key content })

/-- Asks whether there is an object under a key. The answer to such a request has no body. -/
def head (key : String) : Bucket → Except Refusal Unit × Bucket :=
  request .head key fun bucket =>
    if (bucket.objects.get? key).isSome then (pure (), bucket)
    else (throw { noSuchKey with code := none }, bucket)

/-- Takes the object under a key away, if there is one. -/
def delete (key : String) : Bucket → Except Refusal Unit × Bucket :=
  request .delete key fun bucket =>
    (pure (), { bucket with objects := bucket.objects.erase key })

/-- The keys that begin with some text, in order. -/
def keysWith (bucket : Bucket) (start : String) : List String :=
  Store.sortIds (bucket.objects.names.filter fun key => start.toList.isPrefixOf key.toList)

/-- The page that begins behind so many keys. -/
def page (bucket : Bucket) (start : String) (token : Option Nat) : Page :=
  let listed := token.getD 0
  let left := (bucket.keysWith start).drop listed
  let size := max 1 (bucket.pageSize listed)
  { keys := left.take size
    next := if left.length ≤ size then none else some (listed + size) }

/-- Lists a page of the keys that begin with some text. -/
def list (start : String) (token : Option Nat) : Bucket → Except Refusal Page × Bucket :=
  request .list ("prefix=" ++ start ++ token.elim "" fun listed => " token=" ++ toString listed)
    fun bucket => (pure (bucket.page start token), bucket)

end Bucket

namespace BucketStore

/-- The beginning of every key: the configured one without slashes around it, and one behind it
unless nothing is left. -/
def keyStart (configured : Option String) : List Char :=
  let inner := (configured.getD "").toList.dropWhile (· == '/')
  let inner := (inner.reverse.dropWhile (· == '/')).reverse
  if inner.isEmpty then [] else inner ++ ['/']

def key (start : List Char) (id : String) : String :=
  String.ofList (start ++ id.toList ++ RecordName.ending)

/-- The id of the record that lies under a key. What lies further down below the beginning is no
record. -/
def idOfKey? (start : List Char) (key : String) : Option String :=
  if start.isPrefixOf key.toList then
    match RecordName.withoutEnding? (key.toList.drop start.length) with
    | some id => if id.contains '/' then none else some (String.ofList id)
    | none => none
  else none

/-- A refusal in words. -/
def describe (refusal : Refusal) : String :=
  refusal.code.getD (toString refusal.status)

def failed (method : Bucket.Method) (refusal : Refusal) : StoreError :=
  .backend ("S3 " ++ method.name ++ " error: " ++ describe refusal)

/-- Reads the record in an object. -/
def recordOf (content : Bytes) : Except StoreError Record :=
  match content.text? with
  | none => throw (.corrupted "Invalid UTF-8 in S3 object: not valid UTF-8")
  | some text =>
    (Record.ofText text).mapError fun e => .corrupted ("Failed to parse record: " ++ e.message)

/-- Reads a record. There is none if, and only if, the code of the refusal says so. -/
def get (start : List Char) (id : String) (bucket : Bucket) : Except StoreError Record × Bucket :=
  match bucket.get (key start id) with
  | (.ok content, bucket) => (recordOf content, bucket)
  | (.error refusal, bucket) =>
    if refusal.code = some "NoSuchKey" then (throw (.notFound id), bucket)
    else (throw (failed .get refusal), bucket)

def put (start : List Char) (record : Record) (bucket : Bucket) :
    Except StoreError Unit × Bucket :=
  let (answer, bucket) := bucket.put (key start record.id) (Bytes.ofText record.text)
  (answer.mapError (failed .put), bucket)

/-- There is an object for a record. There is none if, and only if, the status says so. -/
def contains (start : List Char) (id : String) (bucket : Bucket) :
    Except StoreError Bool × Bucket :=
  match bucket.head (key start id) with
  | (.ok (), bucket) => (pure true, bucket)
  | (.error refusal, bucket) =>
    if refusal.status = 404 then (pure false, bucket) else (throw (failed .head refusal), bucket)

def delete (start : List Char) (id : String) (bucket : Bucket) : Except StoreError Unit × Bucket :=
  let (answer, bucket) := bucket.delete (key start id)
  (answer.mapError (failed .delete), bucket)

/-- The ids on a page and all behind it, on at most `pages` more pages. -/
def listFrom (start : List Char) :
    (pages : Nat) → Option Nat → Bucket → Except StoreError (List String) × Bucket
  | 0, _, bucket => (pure [], bucket)
  | pages + 1, token, bucket =>
    match bucket.list (String.ofList start) token with
    | (.error refusal, bucket) => (throw (failed .list refusal), bucket)
    | (.ok page, bucket) =>
      let ids := page.keys.filterMap (idOfKey? start)
      match page.next with
      | none => (pure ids, bucket)
      | some token =>
        let (rest, bucket) := listFrom start pages (some token) bucket
        (rest.map (ids ++ ·), bucket)

/-- The ids of all records. Every page has a key, so there are no more pages than objects, but for
the one page of an empty bucket. -/
def list (start : List Char) (bucket : Bucket) : Except StoreError (List String) × Bucket :=
  let (ids, bucket) := listFrom start (bucket.objects.length + 1) none bucket
  (ids.map Store.sortIds, bucket)

end BucketStore

/-- The store in a bucket, under the configured beginning of keys. -/
def bucketStore (configured : Option String) : Store Bucket where
  backend := .bucket
  answer
    | .get id => BucketStore.get (BucketStore.keyStart configured) id
    | .put record => BucketStore.put (BucketStore.keyStart configured) record
    | .contains id => BucketStore.contains (BucketStore.keyStart configured) id
    | .delete id => BucketStore.delete (BucketStore.keyStart configured) id
    | .list => BucketStore.list (BucketStore.keyStart configured)

end ServiceBroker
