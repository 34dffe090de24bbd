import RedisJson.Rust.Machine
import RedisJson.Rust.Vec
import RedisJson.Json.Value
import RedisJson.Command.Args
import RedisJson.Command.Resp
import RedisJson.Transform.Scalar
import RedisJson.Transform.Array
import RedisJson.Command.Keyspace
import RedisJson.Command.Readonly
import RedisJson.Command.Server
import RedisJson.Command.Notify
import RedisJson.Command.WrongType
import RedisJson.Formatter.Machine
import RedisJson.Formatter.Pretty
