namespace JsonShorthand.CommandLine

def about : String := "jg - a CLI tool to generate JSON"

def versionText : String := "jg 0.1.0"

def usage : String := "Usage: jg [-p] [-s NAME=VALUE]... [--log-level LEVEL] [GENERATORS]..."

def help : String := "EXAMPLES

  $ jg name=foo
  \x7b\"name\":\"foo\"\x7d

  $ jg id=:32
  \x7b\"id\":32\x7d

  $ jg name=foo id=:32
  \x7b\"id\":32,\"name\":\"foo\"\x7d

  $ jg foo.bar=hello
  \x7b\"foo\":\x7b\"bar\":\"hello\"\x7d\x7d

  $ jg parent.child1=v1 parent.child2=v2
  \x7b\"parent\":\x7b\"child1\":\"v1\",\"child2\":\"v2\"\x7d\x7d

  $ jg 'parent=\x7bchild1=v1 child2=v2\x7d'
  \x7b\"parent\":\x7b\"child1\":\"v1\",\"child2\":\"v2\"\x7d\x7d

  $ jg '[foo bar]'
  [\"foo\",\"bar\"]

  $ jg '[:1 :2 :3]'
  [1,2,3]

  $ jg '[ foo=:true bar=:false ]'
  [\x7b\"foo\":true\x7d,\x7b\"bar\":false\x7d]

  $ jg '[ \x7bfoo=a yes=:true\x7d \x7bbar=b yes=:false\x7d ]'
  [\x7b\"foo\":\"a\",\"yes\":true\x7d,\x7b\"bar\":\"b\",\"yes\":false\x7d]

  $ jg -s id=:7 -s name=bob 'user=\x7bid=$id name=$name\x7d'
  \x7b\"user\":\x7b\"id\":7,\"name\":\"bob\"\x7d\x7d

  $ jg '\x7ba=1\x7d' '\x7bb=2\x7d'
  \x7b\"a\":\"1\"\x7d
  \x7b\"b\":\"2\"\x7d

GENERATOR SYNTAX

  Field

    field=value

  A field name containing dots is a path: intermediary objects are created
  and repeated paths merge into the same object. Enclose a name in double
  quotes to disable that.

  Values are literals, variables, object generators or array generators.
  Literals are strings. Prefix a literal with ':' for it to be read as a
  number, a boolean or null. Multi-word literals must be enclosed in double
  quotes, and \\\" inserts a quote inside them.

  Variable

    field=$name

  Replaced by the value given with `-s name=VALUE`, or null when unset.
  VALUE is a literal or a ':'-prefixed raw literal.

  Object

    field=\x7b GENERATOR... \x7d

  Creates a JSON object from the field generators inside the braces.

  Array

    field=[ GENERATOR... ]

  Creates a JSON array. The accepted elements are:

    - literal, raw literal or variable: added as is
    - field generator: adds an object containing the generated field
    - object generator: adds the generated object
    - array generator: adds the generated array

  Top level

  If the expressions start with '\x7b' or '[', every bracketed group produces
  its own JSON document, printed one per line. Otherwise all fields build a
  single object.
"

end JsonShorthand.CommandLine
