import CodeScope.Opcode

/-!
# Opcodes of version 3.10

The operations of the 3.10 interpreter with the meaning of their arguments.
-/

namespace CodeScope
namespace OpcodeTable

/-- The opcodes of version 3.10. -/
def table310 : OpcodeTable where
  version := ⟨3, 10⟩
  opcodes := [
    ⟨1, "POP_TOP", .plain⟩,
    ⟨2, "ROT_TWO", .plain⟩,
    ⟨3, "ROT_THREE", .plain⟩,
    ⟨4, "DUP_TOP", .plain⟩,
    ⟨5, "DUP_TOP_TWO", .plain⟩,
    ⟨6, "ROT_FOUR", .plain⟩,
    ⟨9, "NOP", .plain⟩,
    ⟨10, "UNARY_POSITIVE", .plain⟩,
    ⟨11, "UNARY_NEGATIVE", .plain⟩,
    ⟨12, "UNARY_NOT", .plain⟩,
    ⟨15, "UNARY_INVERT", .plain⟩,
    ⟨16, "BINARY_MATRIX_MULTIPLY", .plain⟩,
    ⟨17, "INPLACE_MATRIX_MULTIPLY", .plain⟩,
    ⟨19, "BINARY_POWER", .plain⟩,
    ⟨20, "BINARY_MULTIPLY", .plain⟩,
    ⟨22, "BINARY_MODULO", .plain⟩,
    ⟨23, "BINARY_ADD", .plain⟩,
    ⟨24, "BINARY_SUBTRACT", .plain⟩,
    ⟨25, "BINARY_SUBSCR", .plain⟩,
    ⟨26, "BINARY_FLOOR_DIVIDE", .plain⟩,
    ⟨27, "BINARY_TRUE_DIVIDE", .plain⟩,
    ⟨28, "INPLACE_FLOOR_DIVIDE", .plain⟩,
    ⟨29, "INPLACE_TRUE_DIVIDE", .plain⟩,
    ⟨30, "GET_LEN", .plain⟩,
    ⟨31, "MATCH_MAPPING", .plain⟩,
    ⟨32, "MATCH_SEQUENCE", .plain⟩,
    ⟨33, "MATCH_KEYS", .plain⟩,
    ⟨34, "COPY_DICT_WITHOUT_KEYS", .plain⟩,
    ⟨49, "WITH_EXCEPT_START", .plain⟩,
    ⟨50, "GET_AITER", .plain⟩,
    ⟨51, "GET_ANEXT", .plain⟩,
    ⟨52, "BEFORE_ASYNC_WITH", .plain⟩,
    ⟨54, "END_ASYNC_FOR", .plain⟩,
    ⟨55, "INPLACE_ADD", .plain⟩,
    ⟨56, "INPLACE_SUBTRACT", .plain⟩,
    ⟨57, "INPLACE_MULTIPLY", .plain⟩,
    ⟨59, "INPLACE_MODULO", .plain⟩,
    ⟨60, "STORE_SUBSCR", .plain⟩,
    ⟨61, "DELETE_SUBSCR", .plain⟩,
    ⟨62, "BINARY_LSHIFT", .plain⟩,
    ⟨63, "BINARY_RSHIFT", .plain⟩,
    ⟨64, "BINARY_AND", .plain⟩,
    ⟨65, "BINARY_XOR", .plain⟩,
    ⟨66, "BINARY_OR", .plain⟩,
    ⟨67, "INPLACE_POWER", .plain⟩,
    ⟨68, "GET_ITER", .plain⟩,
    ⟨69, "GET_YIELD_FROM_ITER", .plain⟩,
    ⟨70, "PRINT_EXPR", .plain⟩,
    ⟨71, "LOAD_BUILD_CLASS", .plain⟩,
    ⟨72, "YIELD_FROM", .plain⟩,
    ⟨73, "GET_AWAITABLE", .plain⟩,
    ⟨74, "LOAD_ASSERTION_ERROR", .plain⟩,
    ⟨75, "INPLACE_LSHIFT", .plain⟩,
    ⟨76, "INPLACE_RSHIFT", .plain⟩,
    ⟨77, "INPLACE_AND", .plain⟩,
    ⟨78, "INPLACE_XOR", .plain⟩,
    ⟨79, "INPLACE_OR", .plain⟩,
    ⟨82, "LIST_TO_TUPLE", .plain⟩,
    ⟨83, "RETURN_VALUE", .plain⟩,
    ⟨84, "IMPORT_STAR", .plain⟩,
    ⟨85, "SETUP_ANNOTATIONS", .plain⟩,
    ⟨86, "YIELD_VALUE", .plain⟩,
    ⟨87, "POP_BLOCK", .plain⟩,
    ⟨89, "POP_EXCEPT", .plain⟩,
    ⟨90, "STORE_NAME", .name⟩,
    ⟨91, "DELETE_NAME", .name⟩,
    ⟨92, "UNPACK_SEQUENCE", .plain⟩,
    ⟨93, "FOR_ITER", .relativeJump⟩,
    ⟨94, "UNPACK_EX", .plain⟩,
    ⟨95, "STORE_ATTR", .name⟩,
    ⟨96, "DELETE_ATTR", .name⟩,
    ⟨97, "STORE_GLOBAL", .name⟩,
    ⟨98, "DELETE_GLOBAL", .name⟩,
    ⟨99, "ROT_N", .plain⟩,
    ⟨100, "LOAD_CONST", .const⟩,
    ⟨101, "LOAD_NAME", .name⟩,
    ⟨102, "BUILD_TUPLE", .plain⟩,
    ⟨103, "BUILD_LIST", .plain⟩,
    ⟨104, "BUILD_SET", .plain⟩,
    ⟨105, "BUILD_MAP", .plain⟩,
    ⟨106, "LOAD_ATTR", .name⟩,
    ⟨107, "COMPARE_OP", .plain⟩,
    ⟨108, "IMPORT_NAME", .name⟩,
    ⟨109, "IMPORT_FROM", .name⟩,
    ⟨110, "JUMP_FORWARD", .relativeJump⟩,
    ⟨111, "JUMP_IF_FALSE_OR_POP", .absoluteJump⟩,
    ⟨112, "JUMP_IF_TRUE_OR_POP", .absoluteJump⟩,
    ⟨113, "JUMP_ABSOLUTE", .absoluteJump⟩,
    ⟨114, "POP_JUMP_IF_FALSE", .absoluteJump⟩,
    ⟨115, "POP_JUMP_IF_TRUE", .absoluteJump⟩,
    ⟨116, "LOAD_GLOBAL", .name⟩,
    ⟨117, "IS_OP", .plain⟩,
    ⟨118, "CONTAINS_OP", .plain⟩,
    ⟨119, "RERAISE", .plain⟩,
    ⟨121, "JUMP_IF_NOT_EXC_MATCH", .absoluteJump⟩,
    ⟨122, "SETUP_FINALLY", .relativeJump⟩,
    ⟨124, "LOAD_FAST", .localVar⟩,
    ⟨125, "STORE_FAST", .localVar⟩,
    ⟨126, "DELETE_FAST", .localVar⟩,
    ⟨129, "GEN_START", .plain⟩,
    ⟨130, "RAISE_VARARGS", .plain⟩,
    ⟨131, "CALL_FUNCTION", .plain⟩,
    ⟨132, "MAKE_FUNCTION", .plain⟩,
    ⟨133, "BUILD_SLICE", .plain⟩,
    ⟨135, "LOAD_CLOSURE", .freeVar⟩,
    ⟨136, "LOAD_DEREF", .freeVar⟩,
    ⟨137, "STORE_DEREF", .freeVar⟩,
    ⟨138, "DELETE_DEREF", .freeVar⟩,
    ⟨141, "CALL_FUNCTION_KW", .plain⟩,
    ⟨142, "CALL_FUNCTION_EX", .plain⟩,
    ⟨143, "SETUP_WITH", .relativeJump⟩,
    ⟨144, "EXTENDED_ARG", .plain⟩,
    ⟨145, "LIST_APPEND", .plain⟩,
    ⟨146, "SET_ADD", .plain⟩,
    ⟨147, "MAP_ADD", .plain⟩,
    ⟨148, "LOAD_CLASSDEREF", .freeVar⟩,
    ⟨152, "MATCH_CLASS", .plain⟩,
    ⟨154, "SETUP_ASYNC_WITH", .relativeJump⟩,
    ⟨155, "FORMAT_VALUE", .plain⟩,
    ⟨156, "BUILD_CONST_KEY_MAP", .plain⟩,
    ⟨157, "BUILD_STRING", .plain⟩,
    ⟨160, "LOAD_METHOD", .name⟩,
    ⟨161, "CALL_METHOD", .plain⟩,
    ⟨162, "LIST_EXTEND", .plain⟩,
    ⟨163, "SET_UPDATE", .plain⟩,
    ⟨164, "DICT_MERGE", .plain⟩,
    ⟨165, "DICT_UPDATE", .plain⟩]

end OpcodeTable
end CodeScope
