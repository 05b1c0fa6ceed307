import RouteDocs.Operation.Basic

/-!
# RouteDocs.Document.Basic — the document of an interface

A document has a title, a version, a server and the operations of each path by method.  Paths and
methods keep the order in which they first came; an operation that comes again replaces the one
before.
-/

namespace RouteDocs

open Shape

/-- The operations of a path by method. -/
abbrev Operations := List (String × Operation)

/-- The document of an interface. -/
structure Document where
  title : String
  version : String
  serverUrl : String
  serverDescription : String := "Base API URL"
  paths : List (String × Operations) := []
deriving Repr, BEq, Inhabited

namespace Document

/-- The head of a document from the fields of a record. -/
def ofFields (fields : Fields) : Checked Document :=
  both (fun (title, version) (serverUrl, serverDescription) =>
      { title, version, serverUrl, serverDescription })
    (both Prod.mk (field "title" text fields) (field "version" text fields))
    (both Prod.mk (field "server_url" text fields)
      (fieldOr "server_description" "Base API URL" text fields))

/-- The operations under a path. -/
def operations (d : Document) (path : String) : Operations := (d.paths.lookup path).getD []

/-- The document with an operation under a path and a method. -/
def add (d : Document) (path method : String) (o : Operation) : Document :=
  { d with paths := putField path (putField method o (d.operations path)) d.paths }

/-- The version of the format of documents. -/
def formatVersion : String := "3.0.0"

/-- The way in which requests are authenticated. -/
def bearerScheme : Value :=
  .record [("type", .str "http"), ("scheme", .str "bearer"), ("bearerFormat", .str "JWT")]

/-- The operations of a path as part of a document. -/
def operationsValue (os : Operations) : Value :=
  .record (os.map fun (method, o) => (method, o.toValue))

/-- The document as a value. -/
def toValue (d : Document) : Value :=
  .record [
    ("openapi", .str formatVersion),
    ("info", .record [("title", .str d.title), ("version", .str d.version)]),
    ("servers", .list [.record [("url", .str d.serverUrl),
      ("description", .str d.serverDescription)]]),
    ("paths", .record (d.paths.map fun (path, os) => (path, operationsValue os))),
    ("components", .record [("securitySchemes", .record [("bearerAuth", bearerScheme)])])]

end Document

end RouteDocs
